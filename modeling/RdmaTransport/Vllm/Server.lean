import RdmaTransport.Rdma

/-!
# The server's tasks

`VllmRdmaServer::listen` starts a thread that takes connections until it is told to stop, and spawns
one task for each of them. The task accepts, then handles notifications until one says that the
client is done, and disconnects last. `handle_notification` is unwrapped, so an error of it aborts
the task before the disconnect; so is the release of the device's primary context, once the thread
has been told to stop.

## Main definitions

* `listenIteration`, `listen` — the thread that takes connections
* `handlerIteration` — one pass of the loop
* `handler` — the loop, the first iterations
* `handlerTask` — the whole spawned task
-/

namespace RdmaTransport

open Interaction

namespace Server

/-! ### Taking connections -/

/-- How `tokio::select!` panics. -/
def selectMsg : String := "all branches are disabled and there is no else branch"

/-- One pass of the listener's loop: `some ()` when it has been told to stop. -/
def listenIteration (gpuOrdinal : Int) : Task (Option Unit) := do
  match ← Task.perform .select with
  | .command =>
    Task.unwrap (← (cudaDevicePrimaryCtxRelease gpuOrdinal).run)
    pure (some ())
  | .connection =>
    Task.perform (.observe (.info "start qp handshake"))
    Task.perform .spawn
    pure none
  | .neither => Task.panic selectMsg

/-- The thread of `listen`, with the first `n` iterations of its loop. -/
def listen (gpuOrdinal : Int) (n : ℕ) : Task (Option Unit) := do
  match ← Prog.loop (listenIteration gpuOrdinal) n with
  | some _ =>
    Task.perform (.observe (.info "runtime end at"))
    pure (some ())
  | none => pure none

/-! ### Handling one connection -/

/-- One pass of the loop: `some ()` when the notification is a done notification. -/
def handlerIteration (cpuMr : IbvMr) (cpuBuffer : MemBuffer) : Task (Option Unit) := do
  let notification ← Task.unwrap (← (handleNotification cpuMr cpuBuffer).run)
  Task.perform (.observe (.decoded notification))
  if notification.done > 0 then
    Task.perform (.observe (.info "notifcation"))
    pure (some ())
  else
    match notification.reqId with
    | some reqId =>
      let reqs ← Task.perform .lockReqs
      Task.perform (.putReqs (reqs.record reqId))
      Task.perform .unlockReqs
      pure none
    | none => pure none

/-- The first `n` iterations of the loop, and the disconnect if one of them broke out of it. -/
def handler (cpuMr : IbvMr) (cpuBuffer : MemBuffer) (n : ℕ) : Task (Option Unit) := do
  match ← Prog.loop (handlerIteration cpuMr cpuBuffer) n with
  | some _ =>
    Task.unwrap (← disconnect.run)
    pure (some ())
  | none => pure none

/-- The spawned task, with the first `n` iterations of its loop. -/
def handlerTask (gpuOrdinal : Int) (gpuBuffers : List GPUMemBuffer) (n : ℕ) :
    Task (Option Unit) := do
  match ← (accept gpuOrdinal gpuBuffers).run with
  | .ok (_, (cpuMr, cpuBuffer), _) => handler cpuMr cpuBuffer n
  | .error e =>
    Task.perform (.observe (.error "exchange qp failed" e))
    Task.unwrap (← disconnect.run)
    pure (some ())

/-! ### The parts of a pass -/

/-- What a pass does with a notification. -/
def handlerTail (notification : Notification) : Task (Option Unit) :=
  .call (.observe (.decoded notification)) fun _ =>
    if notification.done > 0 then .call (.observe (.info "notifcation")) fun _ => .ret (some ())
    else
      match notification.reqId with
      | some reqId =>
        .call .lockReqs fun reqs =>
        .call (.putReqs (reqs.record reqId)) fun _ =>
        .call .unlockReqs fun _ => .ret none
      | none => .ret none

theorem handlerIteration_eq (cpuMr : IbvMr) (cpuBuffer : MemBuffer) :
    handlerIteration cpuMr cpuBuffer = (handleNotification cpuMr cpuBuffer).run.bind fun r =>
      match r with
      | .ok notification => handlerTail notification
      | .error _ => Task.panic Task.unwrapErrMsg := by
  refine congrArg (Prog.bind _) (funext fun r => ?_)
  cases r with
  | error e => exact Task.panic_bind _ _
  | ok notification =>
    refine congrArg (Prog.vis (S := iface) _) (funext fun _ => ?_)
    simp only [Prog.ret_bind]
    split
    · rfl
    · cases notification.reqId <;> rfl

/-- The disconnect after the loop, unwrapped. -/
def handlerEnd : Task (Option Unit) :=
  .call .rdmaDisconnect fun r =>
    (Task.unwrap (rdmaCall "rdma_disconnect" r)).bind fun _ => .ret (some ())

theorem handler_eq (cpuMr : IbvMr) (cpuBuffer : MemBuffer) (n : ℕ) :
    handler cpuMr cpuBuffer n = (Prog.loop (handlerIteration cpuMr cpuBuffer) n).bind fun o =>
      match o with
      | some _ => handlerEnd
      | none => .ret none := by
  refine congrArg (Prog.bind _) (funext fun o => ?_)
  cases o <;> rfl

theorem handlerTask_eq_bind (gpuOrdinal : Int) (gpuBuffers : List GPUMemBuffer) (n : ℕ) :
    handlerTask gpuOrdinal gpuBuffers n = (accept gpuOrdinal gpuBuffers).run.bind fun r =>
      match r with
      | .ok (_, (cpuMr, cpuBuffer), _) => handler cpuMr cpuBuffer n
      | .error e => Task.call (.observe (.error "exchange qp failed" e)) fun _ => handlerEnd := by
  refine congrArg (Prog.bind _) (funext fun r => ?_)
  cases r <;> rfl

end Server

end RdmaTransport
