import RdmaTransport.Rdma

/-!
# The client's worker

`VllmRdmaClient::connect` spawns one worker that takes commands off a channel until it is told to
disconnect. An error of a transfer or of an announcement is logged and the loop goes on; a missing
map entry, a notification that does not fit the page and an error of the final disconnect abort
the task.

## Main definitions

* `Session` — what `connect` hands to the worker
* `completeArm`, `transferArm`, `disconnectArm` — the arms of the match
* `worker` — the first iterations of the loop
* `requests` — the work requests that a command stands for
* `clientTask` — `connect`, and the worker it starts
-/

namespace RdmaTransport

open Interaction

/-- What the worker owns: the peer's page, its own page, and the two maps. -/
structure Session where
  /-- The server's page. -/
  cpuConn : Connection
  /-- The region of the client's page. -/
  cpuMr : IbvMr
  /-- The client's page. -/
  cpuBuffer : MemBuffer
  /-- The regions of the client's GPU buffers, by base pointer. -/
  localGpuBuffers : LocalGpuBuffers
  /-- The server's GPU buffers, by base pointer. -/
  remoteGpuBuffers : HashMap Connection

namespace Client

variable (s : Session)

/-- `Command::Complete`: the request is recorded first, and announced under the same lock. -/
def completeArm (reqId : ReqId) : Task (Option Unit) := do
  let notification : Notification := ⟨0, some reqId⟩
  let metadataSize := notification.serializedSize
  Task.unwrap (← serializeInto s.cpuBuffer notification.serialize)
  Task.perform (.observe (.wrote notification))
  let reqs ← Task.perform .lockReqs
  Task.perform (.putReqs (reqs.record reqId))
  let result ← (writeMetadata s.cpuConn s.cpuMr s.cpuBuffer 0 (UInt16.ofNat metadataSize)).run
  Task.perform (.observe (.announced reqId result))
  match result with
  | .ok _ => pure ()
  | .error e => Task.perform (.observe (.error "write complete message error" e))
  Task.perform .unlockReqs
  pure none

/-- The arms of `Command::Send` and `Command::Recv` with a size above zero differ in the operation
only, `op`. -/
def transferArm
    (op : Connection → IbvMr → UInt64 → UInt64 → UInt32 → Fallible Unit)
    (localTensorBlock remoteTensorBlock : TensorBlock) : Task (Option Unit) := do
  let conn ← Task.unwrapOption (s.remoteGpuBuffers.lookup remoteTensorBlock.basePtr)
  let (gpuMr, _) ← Task.unwrapOption (s.localGpuBuffers.lookup localTensorBlock.basePtr)
  let localAddr ← Task.addU64 localTensorBlock.basePtr localTensorBlock.offset
  let remoteAddr ← Task.addU64 conn.basePtr remoteTensorBlock.offset
  match ← (op conn gpuMr localAddr remoteAddr localTensorBlock.size).run with
  | .ok _ => pure none
  | .error e =>
    Task.perform (.observe (.error "write data error" e))
    pure none

/-- `Command::Disconnect`. -/
def disconnectArm : Task (Option Unit) := do
  Task.perform (.observe (.info "disconnect"))
  Task.unwrap (← (disconnect s.cpuConn s.cpuMr s.cpuBuffer).run)
  pure (some ())

/-- The match on one command. A transfer of size zero falls through to the last arm. -/
def arm : Command → Task (Option Unit)
  | .complete reqId => completeArm s reqId
  | .send loc rem => if loc.size > 0 then transferArm s write loc rem else pure none
  | .recv loc rem => if loc.size > 0 then transferArm s read loc rem else pure none
  | .disconnect => disconnectArm s

/-- `while let Some(cmd) = rx.recv().await`: one iteration. -/
def iteration : Task (Option Unit) := do
  match ← Task.perform .recvCmd with
  | some cmd => arm s cmd
  | none => pure (some ())

/-- The first `n` iterations of the worker. -/
def worker (n : ℕ) : Task (Option Unit) := Prog.loop (iteration s) n

/-- `connect` and the worker it starts, with the first `n` iterations of its loop. -/
def clientTask (gpuOrdinal : Int) (localBuffer : TensorBlocks) (n : ℕ) : Task (Option Unit) := do
  let (cpuConn, (cpuMr, cpuBuffer), localGpuBuffers, remoteGpuBuffers) ←
    Task.unwrap (← (connect gpuOrdinal (localBuffer.map TensorBlock.intoGPUMemBuffer)).run)
  worker ⟨cpuConn, cpuMr, cpuBuffer, localGpuBuffers, remoteGpuBuffers⟩ n

theorem clientTask_eq_bind (gpuOrdinal : Int) (localBuffer : TensorBlocks) (n : ℕ) :
    clientTask gpuOrdinal localBuffer n =
      (connect gpuOrdinal (localBuffer.map TensorBlock.intoGPUMemBuffer)).run.bind fun r =>
        match r with
        | .ok (cpuConn, (cpuMr, cpuBuffer), localGpuBuffers, remoteGpuBuffers) =>
          worker ⟨cpuConn, cpuMr, cpuBuffer, localGpuBuffers, remoteGpuBuffers⟩ n
        | .error _ => Task.panic Task.unwrapErrMsg := by
  refine congrArg (Prog.bind _) (funext fun r => ?_)
  cases r with
  | ok out => rfl
  | error e => exact Task.panic_bind _ _

/-! ### What a transfer posts -/

/-- The local range of a transfer. -/
def transferSge (mr : IbvMr) (b : TensorBlock) : IbvSge :=
  ⟨b.basePtr + b.offset, b.size, mr.lkey⟩

/-- The work request of a transfer. -/
def transferWr (opcode : WrOpcode) (conn : Connection) (mr : IbvMr)
    (localAddr remoteAddr : UInt64) (size : UInt32) : IbvSendWr :=
  ⟨⟨localAddr, UInt32.ofNat size.toNat, mr.lkey⟩, opcode, ibvSendSignaled, remoteAddr,
    conn.mrRkey, 0⟩

/-- What a transfer posts has the local range of its block. -/
@[simp] theorem sge_transferWr (opcode : WrOpcode) (conn : Connection) (mr : IbvMr)
    (b : TensorBlock) (remoteAddr : UInt64) :
    (transferWr opcode conn mr (b.basePtr + b.offset) remoteAddr b.size).sge =
      transferSge mr b := by
  simp [transferWr, transferSge]

/-- The operation of a transfer: `write` or `read`. -/
def IsTransfer (op : Connection → IbvMr → UInt64 → UInt64 → UInt32 → Fallible Unit)
    (opcode : WrOpcode) : Prop :=
  ∃ name what, ∀ conn mr la ra size,
    op conn mr la ra size = postAndPoll (transferWr opcode conn mr la ra size) name what

theorem isTransfer_write : IsTransfer write .rdmaWrite := ⟨_, _, fun _ _ _ _ _ => rfl⟩

theorem isTransfer_read : IsTransfer read .rdmaRead := ⟨_, _, fun _ _ _ _ _ => rfl⟩

/-- The end of a transfer arm: an error is logged and nothing more. -/
def transferEnd : Except TransportErrors Unit → Task (Option Unit)
  | .ok _ => .ret none
  | .error e => .call (.observe (.error "write data error" e)) fun _ => .ret none

variable {s} {loc rem : TensorBlock} {conn : Connection} {mr : IbvMr} {buffer : GPUMemBuffer}

/-- With both map entries there, a transfer is two sums and one operation. -/
theorem transferArm_of_lookup
    {op : Connection → IbvMr → UInt64 → UInt64 → UInt32 → Fallible Unit}
    (hrem : s.remoteGpuBuffers.lookup rem.basePtr = some conn)
    (hloc : s.localGpuBuffers.lookup loc.basePtr = some (mr, buffer)) :
    transferArm s op loc rem =
      (Task.addU64 loc.basePtr loc.offset).bind fun localAddr =>
      (Task.addU64 conn.basePtr rem.offset).bind fun remoteAddr =>
      (op conn mr localAddr remoteAddr loc.size).run.bind transferEnd := by
  simp only [transferArm, hrem, hloc, Task.unwrapOption, Prog.bind_eq, Prog.ret_bind]
  refine congrArg (Prog.bind _) (funext fun _ => congrArg (Prog.bind _) (funext fun _ => ?_))
  refine congrArg (Prog.bind _) (funext fun r => ?_)
  cases r <;> rfl

theorem transferArm_of_lookup_remote_none
    {op : Connection → IbvMr → UInt64 → UInt64 → UInt32 → Fallible Unit}
    (hrem : s.remoteGpuBuffers.lookup rem.basePtr = none) :
    transferArm s op loc rem = Task.panic Task.unwrapNoneMsg := by
  simp only [transferArm, hrem, Task.unwrapOption, Prog.bind_eq, Task.panic_bind]

theorem transferArm_of_lookup_local_none
    {op : Connection → IbvMr → UInt64 → UInt64 → UInt32 → Fallible Unit}
    (hloc : s.localGpuBuffers.lookup loc.basePtr = none) :
    transferArm s op loc rem = Task.panic Task.unwrapNoneMsg := by
  cases hrem : s.remoteGpuBuffers.lookup rem.basePtr with
  | none => exact transferArm_of_lookup_remote_none hrem
  | some conn =>
    simp only [transferArm, hrem, hloc, Task.unwrapOption, Prog.bind_eq, Prog.ret_bind,
      Task.panic_bind]

/-! ### What an announcement does -/

/-- The notification of a request. -/
def announcement (reqId : ReqId) : Notification := ⟨0, some reqId⟩

/-- The work request that announces a request. -/
def announcementWr (s : Session) (reqId : ReqId) : IbvSendWr :=
  metadataWr s.cpuConn s.cpuMr s.cpuBuffer (UInt16.ofNat (announcement reqId).serializedSize)

/-- The end of the `Complete` arm: an error is logged and nothing more. -/
def completeEnd (reqId : ReqId) (result : Except TransportErrors Unit) : Task (Option Unit) :=
  .call (.observe (.announced reqId result)) fun _ =>
    match result with
    | .ok _ => .call .unlockReqs fun _ => .ret none
    | .error e => .call (.observe (.error "write complete message error" e)) fun _ =>
        .call .unlockReqs fun _ => .ret none

/-- The rest of the `Complete` arm once the page is written: the request is recorded, and then
announced. -/
def recordAndAnnounce (s : Session) (reqId : ReqId) : Task (Option Unit) :=
  .call .lockReqs fun reqs =>
  .call (.putReqs (reqs.record reqId)) fun _ =>
  (postAndPoll (announcementWr s reqId) "write_metadata" "poll_write_comp").run.bind
    (completeEnd reqId)

theorem completeArm_of_fits {reqId : ReqId}
    (h : (announcement reqId).serializedSize ≤ cpuBufferBaseSize) :
    completeArm s reqId =
      .call (.writePage s.cpuBuffer (announcement reqId).serialize) fun _ =>
      .call (.observe (.wrote (announcement reqId))) fun _ => recordAndAnnounce s reqId := by
  have hlen : (Notification.serialize ⟨0, some reqId⟩).length ≤ cpuBufferBaseSize := h
  simp only [completeArm, serializeInto, hlen, if_true, Prog.bind_eq, Prog.pure_eq, Task.unwrap,
    writeMetadata_zero]
  refine congrArg (Prog.vis (S := iface) _) (funext fun _ => ?_)
  refine congrArg (Prog.vis (S := iface) _) (funext fun _ => ?_)
  refine congrArg (Prog.vis (S := iface) _) (funext fun _ => ?_)
  refine congrArg (Prog.vis (S := iface) _) (funext fun _ => ?_)
  change (postAndPoll (announcementWr s reqId) "write_metadata" "poll_write_comp").run.bind _ = _
  refine congrArg (Prog.bind _) (funext fun r => ?_)
  cases r <;> rfl

theorem completeArm_of_not_fits {reqId : ReqId}
    (h : ¬ (announcement reqId).serializedSize ≤ cpuBufferBaseSize) :
    completeArm s reqId =
      .call (.writePage s.cpuBuffer (announcement reqId).serialize) fun _ =>
        Task.panic Task.unwrapErrMsg := by
  have hlen : ¬ (Notification.serialize ⟨0, some reqId⟩).length ≤ cpuBufferBaseSize := h
  simp only [completeArm, serializeInto, hlen, if_false, Prog.bind_eq, Prog.pure_eq, Task.unwrap]
  refine congrArg (Prog.vis (S := iface) _) (funext fun _ => ?_)
  exact Task.panic_bind _ _

/-! ### What the final disconnect does -/

/-- The work request that announces the end. -/
def doneWr (s : Session) : IbvSendWr := metadataWr s.cpuConn s.cpuMr s.cpuBuffer 5

/-- The end of the `Disconnect` arm: every error is unwrapped. -/
def disconnectEnd : Except TransportErrors Unit → Task (Option Unit)
  | .ok _ => .call .rdmaDisconnect fun r =>
      (Task.unwrap (rdmaCall "rdma_disconnect" r)).bind fun _ => .ret (some ())
  | .error _ => Task.panic Task.unwrapErrMsg

theorem disconnectArm_eq :
    disconnectArm s =
      .call (.observe (.info "disconnect")) fun _ =>
      .call (.writePage s.cpuBuffer Notification.complete.serialize) fun _ =>
      .call (.observe (.wrote .complete)) fun _ =>
      (postAndPoll (doneWr s) "write_metadata" "poll_write_comp").run.bind disconnectEnd := by
  simp only [disconnectArm, run_disconnect, Prog.bind_eq, Prog.vis_bind, Prog.bind_assoc,
    writeMetadata_zero]
  refine congrArg (Prog.vis (S := iface) _) (funext fun _ => ?_)
  refine congrArg (Prog.vis (S := iface) _) (funext fun _ => ?_)
  refine congrArg (Prog.vis (S := iface) _) (funext fun _ => ?_)
  refine congrArg (Prog.bind _) (funext fun r => ?_)
  cases r with
  | ok _ => rfl
  | error e =>
    simp only [Prog.ret_bind, Task.unwrap, Task.panic_bind]
    rfl

/-! ### What a command posts -/

variable (s)

/-- The work request of a transfer: none if the block is empty or a base pointer is unknown. -/
def transferRequests (opcode : WrOpcode) (loc rem : TensorBlock) : List IbvSendWr :=
  if loc.size > 0 then
    match s.remoteGpuBuffers.lookup rem.basePtr, s.localGpuBuffers.lookup loc.basePtr with
    | some conn, some (mr, _) =>
      [transferWr opcode conn mr (loc.basePtr + loc.offset) (conn.basePtr + rem.offset) loc.size]
    | _, _ => []
  else []

theorem mem_transferRequests {s : Session} {opcode : WrOpcode} {loc rem : TensorBlock}
    {wr : IbvSendWr} : wr ∈ transferRequests s opcode loc rem ↔
      loc.size > 0 ∧ ∃ conn q, s.remoteGpuBuffers.lookup rem.basePtr = some conn ∧
        s.localGpuBuffers.lookup loc.basePtr = some q ∧
        wr = transferWr opcode conn q.1 (loc.basePtr + loc.offset) (conn.basePtr + rem.offset)
          loc.size := by
  unfold transferRequests
  split
  next hsize =>
    cases s.remoteGpuBuffers.lookup rem.basePtr with
    | none => simp
    | some conn => cases s.localGpuBuffers.lookup loc.basePtr <;> simp [hsize]
  next hsize => simp [hsize]

/-- The work requests of a command: one or none. -/
def requests : Command → List IbvSendWr
  | .send loc rem => transferRequests s .rdmaWrite loc rem
  | .recv loc rem => transferRequests s .rdmaRead loc rem
  | .complete reqId =>
    if (announcement reqId).serializedSize ≤ cpuBufferBaseSize then [announcementWr s reqId] else []
  | .disconnect => [doneWr s]

end Client

end RdmaTransport
