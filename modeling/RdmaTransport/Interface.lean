import Mathlib.Data.List.AList
import RdmaTransport.Errors
import RdmaTransport.Internal.Program
import RdmaTransport.Vllm.TensorBlock

/-!
# The interface to the environment

Every function of the repository that touches the network card, the CUDA driver, a page that the
card also writes, the shared completion table or the command channel does so through one of the
operations below. `Task` is a program over them, `Fallible` a task that returns a
`Result<_, TransportErrors>`.

## What the operations stand for

* The verbs and connection-manager calls return a C status, see `CRet`. A completion queue is
  polled in a loop that goes round while `poll_cq` answers `0`, so one `ibvPollCq` is answered
  only when `poll_cq` returns something else; until then the task stays at the call.
* A `Connection` on the stack whose address is given to the card is an object of the environment:
  `letConn` places it and answers its address, `readConn` reads what is there now. The page
  behind a `MemBuffer` is read by `readPage` and written by `writePage`.
* `lockReqs` is `completion_reqs.write().unwrap()` and answers the table, `putReqs` stores through
  the guard and `unlockReqs` drops it.
* `panic` has no answer. `overflow` marks a sum that does not fit 64 bits: a build with overflow
  checks panics there, one without goes on with the wrapped sum.
* `observe` records what a function returned. It is no step of the source; it lets a statement
  speak about that moment.
-/

namespace RdmaTransport

open Interaction

/-! ### Verbs data -/

/-- `std::collections::HashMap` with `u64` keys. -/
abbrev HashMap (α : Type) := AList fun _ : UInt64 => α

/-- Which completion queue. -/
inductive Cq
  /-- Of sends, writes and reads. -/
  | send
  /-- Of receives. -/
  | recv
  deriving DecidableEq, Repr

/-- A registered memory region. -/
structure IbvMr where
  /-- The first registered address. -/
  addr : UInt64
  /-- How many bytes are registered. -/
  length : ℕ
  /-- The key for local access. -/
  lkey : UInt32
  /-- The key for remote access. -/
  rkey : UInt32
  deriving DecidableEq, Repr

/-- A local range of a work request. -/
structure IbvSge where
  /-- Where it starts. -/
  addr : UInt64
  /-- How many bytes it has. -/
  length : UInt32
  /-- The key of the region it lies in. -/
  lkey : UInt32
  deriving DecidableEq, Repr

/-- The range lies in the region. -/
def IbvMr.Contains (mr : IbvMr) (sge : IbvSge) : Prop :=
  mr.addr.toNat ≤ sge.addr.toNat ∧
    sge.addr.toNat + sge.length.toNat ≤ mr.addr.toNat + mr.length

instance (mr : IbvMr) (sge : IbvSge) : Decidable (mr.Contains sge) :=
  inferInstanceAs (Decidable (_ ∧ _))

/-- The opcodes the crate posts. -/
inductive WrOpcode
  /-- `IBV_WR_SEND`. -/
  | send
  /-- `IBV_WR_RDMA_WRITE`. -/
  | rdmaWrite
  /-- `IBV_WR_RDMA_WRITE_WITH_IMM`. -/
  | rdmaWriteWithImm
  /-- `IBV_WR_RDMA_READ`. -/
  | rdmaRead
  deriving DecidableEq, Repr

/-- A send work request. `wr_id` is left out: no function reads it. -/
structure IbvSendWr where
  /-- The local range. -/
  sge : IbvSge
  /-- What to do with it. -/
  opcode : WrOpcode
  /-- `IBV_SEND_SIGNALED` or `IBV_SEND_INLINE`. -/
  sendFlags : UInt32
  /-- The remote address, of a write or a read. -/
  remoteAddr : UInt64
  /-- The remote key, of a write or a read. -/
  rkey : UInt32
  /-- The immediate in network byte order, of a write with immediate. -/
  immData : UInt32
  deriving DecidableEq, Repr

/-- A receive work request. -/
structure IbvRecvWr where
  /-- Where a message lands. -/
  sge : IbvSge
  deriving DecidableEq, Repr

/-- A work completion. -/
structure IbvWc where
  /-- `IBV_WC_SUCCESS` or the reason of the failure. -/
  status : UInt32
  /-- What completed. -/
  opcode : UInt32
  /-- The immediate in network byte order. -/
  immData : UInt32
  deriving DecidableEq, Repr

/-- `IBV_WC_SUCCESS`. -/
def ibvWcSuccess : UInt32 := 0

/-- `IBV_WC_RECV`. -/
def ibvWcRecv : UInt32 := 128

/-- `IBV_WC_RECV_RDMA_WITH_IMM`. -/
def ibvWcRecvRdmaWithImm : UInt32 := 129

/-- `IBV_SEND_SIGNALED`. -/
def ibvSendSignaled : UInt32 := 2

/-- `IBV_SEND_INLINE`. -/
def ibvSendInline : UInt32 := 8

/-- `IBV_ACCESS_LOCAL_WRITE`. -/
def ibvAccessLocalWrite : UInt32 := 1

/-- `IBV_ACCESS_REMOTE_WRITE`. -/
def ibvAccessRemoteWrite : UInt32 := 2

/-- `IBV_ACCESS_REMOTE_READ`. -/
def ibvAccessRemoteRead : UInt32 := 4

/-! ### Answers -/

/-- What a C call gives back. -/
inductive CRet
  /-- The context has no such operation. -/
  | notFound
  /-- The return value and, for the calls that set it, `errno`. -/
  | ret (code errno : Int)
  deriving DecidableEq, Repr

/-- The C convention: zero is success. -/
def CRet.isOk : CRet → Bool
  | .ret code _ => code == 0
  | .notFound => false

/-- What `poll_cq` gives back when it does not answer zero. -/
inductive PollRet
  /-- The context has no such operation. -/
  | notFound
  /-- A negative return value. -/
  | negative (code : Int)
  /-- One completion. -/
  | entry (wc : IbvWc)
  deriving DecidableEq, Repr

/-- What a function returned, for the statements that speak about that moment. -/
inductive Observation
  /-- The client has serialised a notification into its page. -/
  | wrote (n : Notification)
  /-- `write_metadata` returned for the notification of a request. -/
  | announced (reqId : ReqId) (result : Except TransportErrors Unit)
  /-- `handle_notification` returned a notification. -/
  | decoded (n : Notification)
  /-- A message of `info!`. -/
  | info (msg : String)
  /-- A message of `error!`, with the error it prints. -/
  | error (msg : String) (e : TransportErrors)

/-- Which branch of the listener's `tokio::select!` runs. -/
inductive Selected
  /-- `Ok(Command::Disconnect())` has been received. -/
  | command
  /-- `rdma::listen` has returned a connection. -/
  | connection
  /-- Neither pattern matches what was received. -/
  | neither
  deriving DecidableEq, Repr

/-! ### The operations -/

/-- The operations. -/
inductive Op
  /-- `post_send`. -/
  | ibvPostSend (wr : IbvSendWr)
  /-- `post_recv`. -/
  | ibvPostRecv (wr : IbvRecvWr)
  /-- The loop around `poll_cq`. -/
  | ibvPollCq (cq : Cq)
  /-- `ibv_reg_mr`: the keys, or a null pointer. -/
  | ibvRegMr (addr : UInt64) (length : ℕ) (access : UInt32)
  /-- `ibv_dereg_mr`. No function of the repository calls it. -/
  | ibvDeregMr (mr : IbvMr)
  /-- `ibv_query_qp`. -/
  | ibvQueryQp
  /-- `ibv_modify_qp`, of the access flags. -/
  | ibvModifyQp (accessFlags : UInt32)
  /-- `rdma_accept`. -/
  | rdmaAccept
  /-- `rdma_connect`. -/
  | rdmaConnect
  /-- `rdma_disconnect`. -/
  | rdmaDisconnect
  /-- `cuDeviceGet`: a CUDA result code. -/
  | cuDeviceGet (gpuOrdinal : Int)
  /-- `cuDevicePrimaryCtxRetain`: a CUDA result code. -/
  | cuDevicePrimaryCtxRetain
  /-- `cuDevicePrimaryCtxRelease`: a CUDA result code. -/
  | cuDevicePrimaryCtxRelease
  /-- `cuCtxSetCurrent`: a CUDA result code. -/
  | cuCtxSetCurrent
  /-- `MemBuffer::default()`: the address of the page. -/
  | newPage
  /-- Read the page behind a buffer. -/
  | readPage (buf : MemBuffer)
  /-- Write bytes from the start of the page behind a buffer. -/
  | writePage (buf : MemBuffer) (bytes : List UInt8)
  /-- Place a `Connection` on the stack: its address. -/
  | letConn (conn : Connection)
  /-- Read the `Connection` at an address. -/
  | readConn (addr : UInt64)
  /-- `rx.recv().await`. -/
  | recvCmd
  /-- The listener's `tokio::select!`. -/
  | select
  /-- `rt.spawn`, of the handler of the connection just returned. -/
  | spawn
  /-- `completion_reqs.write().unwrap()`. -/
  | lockReqs
  /-- Store through the guard. -/
  | putReqs (reqs : CompletionReqs)
  /-- Drop the guard. -/
  | unlockReqs
  /-- A 64-bit sum that overflows. -/
  | overflow
  /-- Record what a function returned. -/
  | observe (o : Observation)
  /-- Abort the task. -/
  | panic (msg : String)

/-- What each operation answers. -/
@[reducible] def Op.Ans : Op → Type
  | .ibvPostSend _ | .ibvPostRecv _ => CRet
  | .ibvPollCq _ => PollRet
  | .ibvRegMr _ _ _ => Option (UInt32 × UInt32)
  | .ibvQueryQp | .ibvModifyQp _ | .rdmaAccept | .rdmaConnect | .rdmaDisconnect => CRet
  | .ibvDeregMr _ => CRet
  | .cuDeviceGet _ | .cuDevicePrimaryCtxRetain | .cuCtxSetCurrent => UInt32
  | .cuDevicePrimaryCtxRelease => UInt32
  | .newPage => MemBuffer
  | .readPage _ => Page
  | .letConn _ => UInt64
  | .readConn _ => Connection
  | .recvCmd => Option Command
  | .select => Selected
  | .lockReqs => CompletionReqs
  | .writePage _ _ | .putReqs _ | .unlockReqs | .spawn | .overflow | .observe _ => Unit
  | .panic _ => Empty

/-- The interface. -/
abbrev iface : Signature := ⟨Op, Op.Ans⟩

/-- A task: a program that calls the environment. -/
abbrev Task := Prog iface

namespace Task

variable {α : Type}

/-- Perform an operation and go on with its answer. -/
abbrev call (op : Op) (k : op.Ans → Task α) : Task α := Prog.vis (S := iface) op k

/-- Perform one operation. -/
abbrev perform (op : Op) : Task op.Ans := Prog.perform (S := iface) op

/-- `panic!`. -/
def panic (msg : String) : Task α := call (.panic msg) Empty.elim

@[simp] theorem panic_bind {β : Type} (msg : String) (f : α → Task β) :
    (panic msg : Task α).bind f = panic msg :=
  congrArg (Prog.vis (S := iface) (.panic msg)) (funext fun e => e.elim)

/-- How `Option::unwrap` panics. -/
def unwrapNoneMsg : String := "called `Option::unwrap()` on a `None` value"

/-- How `Result::unwrap` panics, up to the error it prints. -/
def unwrapErrMsg : String := "called `Result::unwrap()` on an `Err` value"

/-- `Option::unwrap`. -/
def unwrapOption : Option α → Task α
  | some a => .ret a
  | none => panic unwrapNoneMsg

/-- `Result::unwrap`. -/
def unwrap {ε : Type} : Except ε α → Task α
  | .ok a => .ret a
  | .error _ => panic unwrapErrMsg

/-- `a + b` on `u64`. -/
def addU64 (a b : UInt64) : Task UInt64 := do
  if a.toNat + b.toNat < 2 ^ 64 then
    pure (a + b)
  else
    perform .overflow
    pure (a + b)

theorem addU64_of_lt {a b : UInt64} (h : a.toNat + b.toNat < 2 ^ 64) :
    addU64 a b = .ret (a + b) := if_pos h

theorem addU64_of_ge {a b : UInt64} (h : ¬ a.toNat + b.toNat < 2 ^ 64) :
    addU64 a b = (perform .overflow).bind fun _ => .ret (a + b) := if_neg h

@[simp] theorem addU64_zero (a : UInt64) : addU64 a 0 = .ret a := by
  rw [addU64_of_lt (by simpa using a.toNat_lt), UInt64.add_zero]

end Task

/-! ### Results -/

/-- A task that returns a `Result<_, TransportErrors>`. Its sequencing is the `?` operator. -/
def Fallible (α : Type) : Type := Task (Except TransportErrors α)

namespace Fallible

variable {α β : Type}

/-- The task, with the `Result` as its value. -/
def run (p : Fallible α) : Task (Except TransportErrors α) := p

/-- `return Err(e)`. -/
def fail (e : TransportErrors) : Fallible α := Prog.ret (.error e)

/-- Go on with the value, or return the error at once. -/
def andThen (p : Fallible α) (f : α → Fallible β) : Fallible β :=
  p.run.bind fun
    | .ok a => f a
    | .error e => .ret (.error e)

/-- A task that cannot fail. -/
def lift (p : Task α) : Fallible α := p.bind fun a => .ret (.ok a)

/-- A `Result`. -/
def ofExcept (r : Except TransportErrors α) : Fallible α := Prog.ret r

instance : Monad Fallible where
  pure a := ofExcept (.ok a)
  bind := andThen

instance : MonadLift Task Fallible := ⟨lift⟩

@[simp] theorem bind_eq (p : Fallible α) (f : α → Fallible β) : p >>= f = p.andThen f := rfl

@[simp] theorem run_lift (p : Task α) : (lift p).run = p.bind fun a => .ret (.ok a) := rfl

@[simp] theorem run_andThen (p : Fallible α) (f : α → Fallible β) :
    (p.andThen f).run = p.run.bind fun r =>
      match r with
      | .ok a => (f a).run
      | .error e => .ret (.error e) := by
  refine congrArg (Prog.bind p) (funext fun r => ?_)
  cases r <;> rfl

/-- A sequence returns a value exactly when its parts do. -/
theorem returns_andThen {p : Fallible α} {f : α → Fallible β} {b : β} :
    (p.andThen f).run.Returns (.ok b) ↔
      ∃ a, p.run.Returns (.ok a) ∧ (f a).run.Returns (.ok b) := by
  rw [run_andThen, Prog.returns_bind]
  refine ⟨fun ⟨r, hp, hf⟩ => ?_, fun ⟨a, hp, hf⟩ => ⟨.ok a, hp, hf⟩⟩
  cases r with
  | ok a => exact ⟨a, hp, hf⟩
  | error e => cases hf

end Fallible

end RdmaTransport
