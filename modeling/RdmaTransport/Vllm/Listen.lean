import RdmaTransport.Internal.Pool
import RdmaTransport.Vllm.Server

/-!
# The server process

The thread of `listen` and the handlers it spawns run in any interleaving. They share the completion
table and its lock and nothing else; each connection has a queue pair, a page and regions of its
own. Thread `0` of the pool is the listener, and every connection it takes adds one thread.

A thread's view is what it has done to the lock, the device and the regions, and which requests have
been delivered to it. What the environment decides is what a call returns and what it finds in
memory. The lock answers the table as it is, to one thread at a time.

## Main definitions

* `TaskView`, `TaskView.handler` — what one thread has done, and the environment's choices
* `ServerState` — the table, its lock, and what has been recorded
* `Server.step`, `Server.started` — the process
-/

namespace RdmaTransport

open Interaction

/-! ### One thread -/

/-- The lock of the table, as one thread has it. -/
inductive Guard
  /-- It does not hold it. -/
  | none
  /-- It holds it and has seen this table. -/
  | locked (reqs : CompletionReqs)
  /-- It holds it and has stored through it. -/
  | stored

/-- What one thread of the server has done. -/
structure TaskView where
  /-- The requests that `handle_notification` has returned, without those of done notifications. -/
  delivered : List ReqId
  /-- The last of them, until it is recorded. -/
  due : Option ReqId
  /-- The lock. -/
  guard : Guard
  /-- Whether the listener has been told to stop. -/
  stopped : Bool
  /-- What `cuDeviceGet` has returned. -/
  devices : List UInt32
  /-- How many `cuDevicePrimaryCtxRetain` have succeeded. -/
  retained : ℕ
  /-- How many `cuDevicePrimaryCtxRelease` there have been. -/
  released : ℕ
  /-- What `ibv_reg_mr` has registered. -/
  regions : List IbvMr
  /-- What `ibv_dereg_mr` has deregistered. -/
  deregistered : List IbvMr

namespace TaskView

/-- When the thread starts. -/
def init : TaskView := ⟨[], none, .none, false, [], 0, 0, [], []⟩

/-- What the environment decides. -/
inductive Choice
  /-- A call of the verbs or the connection manager returns this. -/
  | ret (r : CRet)
  /-- A call of the CUDA driver returns this. -/
  | code (c : UInt32)
  /-- `poll_cq` gives this back. -/
  | polled (p : PollRet)
  /-- The keys of a new region, or a null pointer. -/
  | keys (ks : Option (UInt32 × UInt32))
  /-- A page or a variable is placed here. -/
  | placed (addr : UInt64)
  /-- The page is this when it is read. -/
  | page (p : Page)
  /-- The `Connection` is this when it is read. -/
  | conn (c : Connection)
  /-- The table is this when it is locked. -/
  | table (reqs : CompletionReqs)
  /-- The listener takes this branch. -/
  | selected (s : Selected)
  /-- The new handler's loop is unrolled so often. -/
  | iterations (n : ℕ)
  /-- Go on. -/
  | go

variable (v : TaskView)

/-- `ibv_reg_mr` has returned. -/
def registered (addr : UInt64) (length : ℕ) : Option (UInt32 × UInt32) → TaskView
  | some (lkey, rkey) => { v with regions := v.regions ++ [⟨addr, length, lkey, rkey⟩] }
  | none => v

/-- A notification has been returned. A request is recorded unless the notification is done. -/
def received (n : Notification) : TaskView :=
  if n.done > 0 then v
  else
    match n.reqId with
    | some req => { v with delivered := v.delivered ++ [req], due := some req }
    | none => v

/-- Something has been recorded. -/
def note : Observation → TaskView
  | .decoded n => v.received n
  | _ => v

/-- The environment of one thread. An operation that is not answered has not returned yet. -/
def handler : Handler iface TaskView Choice
  | .ibvPostSend _, v, .ret r => some (r, v)
  | .ibvPostRecv _, v, .ret r => some (r, v)
  | .ibvPollCq _, v, .polled p => some (p, v)
  | .ibvRegMr addr length _, v, .keys ks => some (ks, v.registered addr length ks)
  | .ibvDeregMr mr, v, .ret r =>
    some (r, if r.isOk then { v with deregistered := v.deregistered ++ [mr] } else v)
  | .ibvQueryQp, v, .ret r => some (r, v)
  | .ibvModifyQp _, v, .ret r => some (r, v)
  | .rdmaAccept, v, .ret r => some (r, v)
  | .rdmaDisconnect, v, .ret r => some (r, v)
  | .cuDeviceGet _, v, .code c => some (c, { v with devices := v.devices ++ [c] })
  | .cuDevicePrimaryCtxRetain, v, .code c =>
    some (c, if c = 0 then { v with retained := v.retained + 1 } else v)
  | .cuDevicePrimaryCtxRelease, v, .code c => some (c, { v with released := v.released + 1 })
  | .cuCtxSetCurrent, v, .code c => some (c, v)
  | .newPage, v, .placed a => some (⟨a⟩, v)
  | .readPage _, v, .page p => some (p, v)
  | .writePage _ _, v, .go => some ((), v)
  | .letConn _, v, .placed a => some (a, v)
  | .readConn _, v, .conn c => some (c, v)
  | .select, v, .selected s => some (s, { v with stopped := v.stopped || s == .command })
  | .spawn, v, .iterations _ => some ((), v)
  | .lockReqs, v, .table reqs => some (reqs, { v with guard := .locked reqs })
  | .putReqs _, v, .go => some ((), { v with guard := .stored, due := none })
  | .unlockReqs, v, .go => some ((), { v with guard := .none })
  | .overflow, v, .go => some ((), v)
  | .observe o, v, .go => some ((), v.note o)
  | _, _, _ => none

end TaskView

/-! ### The process -/

/-- What the threads of the server share. -/
structure ServerState where
  /-- The table. -/
  reqs : CompletionReqs
  /-- The thread that holds its lock. -/
  holder : Option ℕ
  /-- What has been recorded, in the order of the stores, and by which thread. -/
  recorded : List (ℕ × ReqId)

/-- The threads of a server and what they share. -/
abbrev ServerPool := Pool iface ServerState TaskView (Option Unit)

namespace Server

/-- What an operation of a thread does to the shared state. The lock is given to one thread at a
time, and its guard shows the table as it is. -/
def share (gpuOrdinal : Int) (gpuBuffers : List GPUMemBuffer) :
    SharedHandler iface ServerState TaskView (Option Unit) TaskView.Choice
  | i, .lockReqs, _, s, .table reqs =>
    if s.holder = none ∧ reqs = s.reqs then some ({ s with holder := some i }, []) else none
  | i, .putReqs reqs, v, s, _ =>
    some ({ s with reqs := reqs, recorded := s.recorded ++ v.due.toList.map (i, ·) }, [])
  | _, .unlockReqs, _, s, _ => some ({ s with holder := none }, [])
  | _, .spawn, _, s, .iterations n =>
    some (s, [⟨.init, handlerTask gpuOrdinal gpuBuffers n⟩])
  | _, _, _, s, _ => some (s, [])

/-- One operation of one thread. -/
def step (gpuOrdinal : Int) (gpuBuffers : List GPUMemBuffer) :
    ServerPool → ℕ × TaskView.Choice → Option ServerPool :=
  Pool.step TaskView.handler (share gpuOrdinal gpuBuffers)

/-- `listen` with a table of `size` requests, its loop unrolled `n` times. -/
def started (size : ℕ) (gpuOrdinal : Int) (n : ℕ) : ServerPool :=
  ⟨⟨.new size, none, []⟩, [⟨.init, listen gpuOrdinal n⟩]⟩

variable {gpuOrdinal : Int} {gpuBuffers : List GPUMemBuffer} {i n : ℕ} {op : Op} {v : TaskView}
  {s s' : ServerState} {choice : TaskView.Choice}
  {ts : List (Config iface TaskView (Option Unit))}

/-- Every thread that is started is a handler. -/
theorem share_started (h : share gpuOrdinal gpuBuffers i op v s choice = some (s', ts)) :
    ∀ t ∈ ts, ∃ n, t = ⟨.init, handlerTask gpuOrdinal gpuBuffers n⟩ := by
  unfold share at h
  split at h
  · split at h
    · cases h; simp
    · cases h
  · cases h; simp
  · cases h; simp
  next n => cases h; simp
  · cases h; simp

/-- **The threads of the server.** What is true of the listener and of every handler alone holds of
every thread throughout a run. -/
theorem follows {I : ℕ → Op → TaskView → Prop} {Q : ℕ → Option Unit → TaskView → Prop} {size m : ℕ}
    {p : ServerPool} (hr : Reach (step gpuOrdinal gpuBuffers) anyStep (started size gpuOrdinal m) p)
    (hlisten : TaskView.handler.Always (I 0) (Q 0) (listen gpuOrdinal m) .init)
    (hhandler : ∀ j, j ≠ 0 → ∀ n,
      TaskView.handler.Always (I j) (Q j) (handlerTask gpuOrdinal gpuBuffers n) .init) :
    p.Follows TaskView.handler I Q := by
  refine Pool.follows_of_reach hr ?_ (by simp [started]) ?_
  · intro i t hi
    cases i with
    | zero => cases hi; exact hlisten
    | succ i => cases hi
  · intro q hq i op v choice s' ts he t ht j hj
    obtain ⟨n, rfl⟩ := share_started he t ht
    exact hhandler j (by omega) n

/-! ### Choices of a run -/

/-- The listener takes a connection. -/
def takeLabels : List (ℕ × TaskView.Choice) :=
  [(0, .selected .connection), (0, .go), (0, .iterations 2)]

/-- A completion without an immediate. -/
def plainWc : IbvWc := ⟨ibvWcSuccess, 0, 0⟩

/-- `accept` of a server without buffers, every call succeeding. -/
def acceptLabels (i : ℕ) : List (ℕ × TaskView.Choice) :=
  [(i, .ret (.ret 0 0)), (i, .ret (.ret 0 0)), (i, .placed 4096), (i, .keys (some (1, 1))),
    (i, .code 0), (i, .code 0), (i, .code 0), (i, .placed 8192), (i, .ret (.ret 0 0)),
    (i, .ret (.ret 0 0)), (i, .polled (.entry plainWc)), (i, .placed 12288), (i, .ret (.ret 0 0)),
    (i, .polled (.entry plainWc)), (i, .conn .zero), (i, .go), (i, .ret (.ret 0 0)),
    (i, .polled (.entry plainWc))]

/-- A notification arrives and is decoded. -/
def deliverLabels (i : ℕ) (notification : Notification) : List (ℕ × TaskView.Choice) :=
  [(i, .ret (.ret 0 0)), (i, .polled (.entry ⟨ibvWcSuccess, ibvWcRecvRdmaWithImm,
    htonl (UInt32.ofNat notification.serializedSize)⟩)),
    (i, .page (Page.zero.write notification.serialize)), (i, .go)]

end Server

end RdmaTransport
