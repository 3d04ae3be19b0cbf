import RdmaTransport.Internal.Exchange
import RdmaTransport.Rdma

/-!
# The first failure of a function

Every function of the transport layer is a chain of `?`: a call that fails is the last thing the
function does, and the error it returns is made from the answer of that call. For a C call that is
its name with the `errno` or the code; for a completion with a bad status it is the operation the
function was about, with the status.

## Main definitions

* `Op.Failed` — the answers that are failures
* `Op.Reports` — what an error says of an answer
* `StopsAt` — a function stops at its first failure and reports it

## Main results

* `stopsAt_first_failure` — so do all functions of the transport layer
-/

namespace RdmaTransport

open Interaction

/-! ### Failures and their reports -/

/-- The answer is a failure. -/
def Op.Failed : (op : Op) → op.Ans → Prop
  | .ibvPostSend _, r | .ibvPostRecv _, r | .ibvQueryQp, r | .ibvModifyQp _, r
  | .rdmaAccept, r | .rdmaConnect, r | .rdmaDisconnect, r | .ibvDeregMr _, r => CRet.isOk r = false
  | .ibvPollCq _, p => ∀ wc, p = .entry wc → wc.status ≠ ibvWcSuccess
  | .ibvRegMr _ _ _, keys => keys = none
  | .cuDeviceGet _, code | .cuDevicePrimaryCtxRetain, code | .cuCtxSetCurrent, code
  | .cuDevicePrimaryCtxRelease, code => code ≠ 0
  | _, _ => False

/-- The name under which the error of a C call is reported. -/
def Op.symbol : Op → String
  | .ibvPostSend _ => "ibv_post_send"
  | .ibvPostRecv _ => "ibv_post_recv"
  | .ibvPollCq _ => "ibv_poll_cq"
  | .ibvRegMr _ _ _ => "ibv_reg_mr"
  | .ibvDeregMr _ => "ibv_dereg_mr"
  | .ibvQueryQp => "ibv_query_qp"
  | .ibvModifyQp _ => "ibv_modify_qp"
  | .rdmaAccept => "rdma_accept"
  | .rdmaConnect => "rdma_connect"
  | .rdmaDisconnect => "rdma_disconnect"
  | .cuDeviceGet _ => "cuDeviceGet"
  | .cuDevicePrimaryCtxRetain => "cuDevicePrimaryCtxRetain"
  | .cuDevicePrimaryCtxRelease => "cuDevicePrimaryCtxRelease_v2"
  | .cuCtxSetCurrent => "cuCtxSetCurrent"
  | _ => ""

/-- The error of a C call: its name, and `errno` if there is such a call. -/
def CRet.Reports (r : CRet) (name : String) (e : TransportErrors) : Prop :=
  r = .notFound ∧ e = .rdmaErrors (.opsNotFound name) ∨
    ∃ code errno, r = .ret code errno ∧ e = .rdmaErrors (.opsFailed name errno)

/-- The error of a poll. A completion with a bad status is reported as a failure of one of `ops`. -/
def PollRet.Reports (p : PollRet) (ops : List String) (name : String) (e : TransportErrors) :
    Prop :=
  match p with
  | .notFound => e = .rdmaErrors (.opsNotFound name)
  | .negative code => e = .rdmaErrors (.opsFailed name code)
  | .entry wc => ∃ op what : String, op ∈ ops ∧
      e = .opsFailed op s!"{what} failed with status: {wc.status}"

/-- The error reports the answer. `ops` are the operations the function is about. -/
def Op.Reports (ops : List String) (op : Op) (r : op.Ans) (e : TransportErrors) : Prop :=
  match op, r with
  | .ibvPostSend _, r | .ibvPostRecv _, r | .ibvQueryQp, r | .ibvModifyQp _, r
  | .rdmaAccept, r | .rdmaConnect, r | .rdmaDisconnect, r | .ibvDeregMr _, r =>
    CRet.Reports r op.symbol e
  | .ibvPollCq _, p => PollRet.Reports p ops op.symbol e
  | .ibvRegMr _ _ _, _ => e = .rdmaErrors (.opsFailed op.symbol (-1))
  | .cuDeviceGet _, code | .cuDevicePrimaryCtxRetain, code | .cuCtxSetCurrent, code
  | .cuDevicePrimaryCtxRelease, code => e = .cudaErrors (.opsFailed op.symbol code)
  | _, _ => False

/-- After a failed call the function is over, and what it returns reports the call. -/
def FailsFast {α : Type} (ops : List String) (p : Fallible α) : Prop :=
  p.run.FailsFast Op.Failed fun (op : Op) (r : op.Ans) x => ∃ e, x = .error e ∧ op.Reports ops r e

/-- Whatever its calls are answered: the first failure is the last call, and the function has
returned an error that reports it. -/
def StopsAt {α : Type} (ops : List String) (p : Fallible α) : Prop :=
  ∀ (answers : List (Σ op, iface.Ans op)) (q : Task (Except TransportErrors α)) (i : ℕ) (op : Op)
    (r : op.Ans), Exchange p.run answers q → answers[i]? = some ⟨op, r⟩ → op.Failed r →
    i + 1 = answers.length ∧ ∃ e, q = .ret (.error e) ∧ op.Reports ops r e

section Rules

variable {α β : Type} {ops : List String}

theorem FailsFast.stopsAt {p : Fallible α} (h : FailsFast ops p) : StopsAt ops p := by
  intro answers q i op r hx hi hr
  obtain ⟨hlast, a, rfl, e, rfl, hreport⟩ := Prog.FailsFast.last h hx hi hr
  exact ⟨hlast, e, rfl, hreport⟩

/-- **The `?` operator** returns a report as it is. -/
theorem FailsFast.andThen {p : Fallible α} {f : α → Fallible β} (hp : FailsFast ops p)
    (hf : ∀ a, FailsFast ops (f a)) : FailsFast ops (p.andThen f) := by
  rw [FailsFast, Fallible.run_andThen]
  refine Prog.FailsFast.bind hp (fun r => ?_) ?_
  · cases r with
    | ok a => exact hf a
    | error e => trivial
  · rintro op r _ ⟨e, rfl, hreport⟩
    exact ⟨_, rfl, e, rfl, hreport⟩

theorem failsFast_ofExcept (r : Except TransportErrors α) : FailsFast ops (.ofExcept r) := trivial

/-- One call whose answer is turned into a result. -/
theorem failsFast_call (op : Op) {f : op.Ans → Except TransportErrors α}
    (h : ∀ r, op.Failed r → ∃ e, f r = .error e ∧ op.Reports ops r e) :
    FailsFast ops (Task.call op fun r => .ret (f r)) := by
  intro r
  refine ⟨trivial, fun hr => ?_⟩
  obtain ⟨e, he, hreport⟩ := h r hr
  exact ⟨_, rfl, e, he, hreport⟩

/-- An operation that cannot fail. -/
theorem failsFast_lift {op : Op} (h : ∀ r, ¬ op.Failed r) :
    FailsFast ops (Fallible.lift (Task.perform op)) :=
  fun r => ⟨trivial, fun hr => absurd hr (h r)⟩

/-! ### The calls -/

theorem rdmaCall_of_failed {name : String} {r : CRet} (h : r.isOk = false) :
    ∃ e, rdmaCall name r = .error e ∧ r.Reports name e := by
  cases r with
  | notFound => exact ⟨_, rfl, .inl ⟨rfl, rfl⟩⟩
  | ret code errno =>
    exact ⟨_, if_neg (by simpa [CRet.isOk] using h), .inr ⟨code, errno, rfl, rfl⟩⟩

theorem failsFast_ibvPostSend (wr : IbvSendWr) : FailsFast ops (ibvPostSend wr) :=
  failsFast_call (.ibvPostSend wr) fun _ => rdmaCall_of_failed

theorem failsFast_ibvPostRecv (wr : IbvRecvWr) : FailsFast ops (ibvPostRecv wr) :=
  failsFast_call (.ibvPostRecv wr) fun _ => rdmaCall_of_failed

theorem failsFast_ibvQueryQp : FailsFast ops ibvQueryQp :=
  failsFast_call .ibvQueryQp fun _ => rdmaCall_of_failed

theorem failsFast_ibvModifyQp (flags : UInt32) : FailsFast ops (ibvModifyQp flags) :=
  failsFast_call (.ibvModifyQp flags) fun _ => rdmaCall_of_failed

theorem failsFast_rdmaAccept : FailsFast ops rdmaAccept :=
  failsFast_call .rdmaAccept fun _ => rdmaCall_of_failed

theorem failsFast_rdmaConnect : FailsFast ops rdmaConnect :=
  failsFast_call .rdmaConnect fun _ => rdmaCall_of_failed

theorem failsFast_rdmaDisconnect : FailsFast ops rdmaDisconnect :=
  failsFast_call .rdmaDisconnect fun _ => rdmaCall_of_failed

theorem failsFast_ibvRegMr (addr : UInt64) (length : ℕ) (access : UInt32) :
    FailsFast ops (ibvRegMr addr length access) := by
  intro keys
  cases keys with
  | some ks => exact ⟨trivial, nofun⟩
  | none => exact ⟨trivial, fun _ => ⟨_, rfl, _, rfl, rfl⟩⟩

/-- A poll fails, or it hands out a completion whose status is tested. -/
theorem failsFast_pollComp {op : String} (hop : op ∈ ops) (cq : Cq) (what : String) :
    FailsFast ops (pollComp cq op what) := by
  rw [FailsFast, run_pollComp]
  refine failsFast_call (.ibvPollCq cq) ?_
  intro p hp
  cases p with
  | notFound => exact ⟨_, rfl, rfl⟩
  | negative code => exact ⟨_, rfl, rfl⟩
  | entry wc => exact ⟨_, if_pos (hp wc rfl), op, what, hop, rfl⟩

theorem cudaCall_of_failed {name : String} {code : UInt32} (h : code ≠ 0) :
    ∃ e, cudaCall name code = .error e ∧ e = .cudaErrors (.opsFailed name code) :=
  ⟨_, if_neg h, rfl⟩

/-- A CUDA call, and what is done when it succeeds. -/
theorem failsFast_cuda (op : Op) {f : op.Ans → Except TransportErrors Unit} {p : Fallible α}
    (h : ∀ r, op.Failed r → ∃ e, f r = .error e ∧ op.Reports ops r e) (hp : FailsFast ops p) :
    FailsFast ops ((Fallible.lift (Task.perform op)).andThen fun r =>
      (Fallible.ofExcept (f r)).andThen fun _ => p) := by
  intro r
  show Prog.FailsFast _ _ ((Fallible.ofExcept (f r)).andThen fun _ => p).run ∧ _
  refine ⟨(failsFast_ofExcept (f r)).andThen fun _ => hp, ?_⟩
  intro hr
  obtain ⟨e, he, hreport⟩ := h r hr
  refine ⟨.error e, ?_, e, rfl, hreport⟩
  show ((Fallible.ofExcept (f r)).andThen fun _ => p).run = _
  rw [he]
  rfl

theorem failsFast_cudaDevicePrimaryCtxRetain (gpuOrdinal : Int) :
    FailsFast ops (cudaDevicePrimaryCtxRetain gpuOrdinal) :=
  failsFast_cuda (.cuDeviceGet gpuOrdinal) (fun _ => cudaCall_of_failed)
    (failsFast_call .cuDevicePrimaryCtxRetain fun _ => cudaCall_of_failed)

theorem failsFast_cudaDevicePrimaryCtxRelease (gpuOrdinal : Int) :
    FailsFast ops (cudaDevicePrimaryCtxRelease gpuOrdinal) :=
  failsFast_cuda (.cuDeviceGet gpuOrdinal) (fun _ => cudaCall_of_failed)
    (failsFast_call .cuDevicePrimaryCtxRelease fun _ => cudaCall_of_failed)

theorem failsFast_cudaSetCurrentCtx : FailsFast ops cudaSetCurrentCtx :=
  failsFast_call .cuCtxSetCurrent fun _ => cudaCall_of_failed

theorem failsFast_addU64 (a b : UInt64) : FailsFast ops (Fallible.lift (Task.addU64 a b)) := by
  unfold Task.addU64
  split
  · trivial
  · exact fun _ => ⟨trivial, nofun⟩

theorem failsFast_serializeInto (cpuBuffer : MemBuffer) (bytes : List UInt8) :
    FailsFast ops (Fallible.lift (serializeInto cpuBuffer bytes)) := by
  intro _
  refine ⟨?_, nofun⟩
  simp only [Prog.ret_bind]
  split <;> trivial

theorem failsFast_slicePage (cpuBuffer : MemBuffer) (size : ℕ) :
    FailsFast ops (Fallible.lift (slicePage cpuBuffer size)) := by
  intro _
  refine ⟨?_, nofun⟩
  simp only [Prog.ret_bind]
  split
  · trivial
  · exact fun r => r.elim

/-- Registering a list of buffers stops at the first that cannot be registered. -/
theorem failsFast_registerLoop (body : β → IbvMr → GPUMemBuffer → β) (bufs : List GPUMemBuffer)
    (acc : β) : FailsFast ops (registerLoop body bufs acc) := by
  induction bufs generalizing acc with
  | nil => trivial
  | cons buffer rest ih =>
    exact (failsFast_ibvRegMr _ _ _).andThen fun mr => ih (body acc mr buffer)

/-! ### The functions -/

/-- Post a work request, then poll its completion. -/
theorem failsFast_postAndPoll {op : String} (hop : op ∈ ops) (wr : IbvSendWr) (what : String) :
    FailsFast ops (postAndPoll wr op what) := by
  refine (failsFast_ibvPostSend wr).andThen fun _ => ?_
  exact (failsFast_pollComp hop .send what).andThen fun _ => trivial

theorem failsFast_writeMetadata (hop : "write_metadata" ∈ ops) (conn : Connection) (cpuMr : IbvMr)
    (cpuBuffer : MemBuffer) (offset size : UInt16) :
    FailsFast ops (writeMetadata conn cpuMr cpuBuffer offset size) := by
  refine (failsFast_addU64 _ _).andThen fun addr => ?_
  refine (failsFast_addU64 _ _).andThen fun remoteAddr => ?_
  exact failsFast_postAndPoll hop _ _

theorem failsFast_write (conn : Connection) (mr : IbvMr) (localBufferAddr remoteBufferAddr : UInt64)
    (size : UInt32) :
    FailsFast ["write"] (write conn mr localBufferAddr remoteBufferAddr size) := by
  rw [write_eq]
  exact failsFast_postAndPoll List.mem_cons_self _ _

theorem failsFast_read (conn : Connection) (mr : IbvMr) (localBufferAddr remoteBufferAddr : UInt64)
    (size : UInt32) :
    FailsFast ["read"] (read conn mr localBufferAddr remoteBufferAddr size) := by
  rw [read_eq]
  exact failsFast_postAndPoll List.mem_cons_self _ _

namespace Server

theorem failsFast_establishConn (cpuMr : IbvMr) (cpuBuffer : MemBuffer) :
    FailsFast ["accept"] (establishConn cpuMr cpuBuffer) := by
  refine (failsFast_lift fun _ => id).andThen fun _ => ?_
  refine (failsFast_ibvPostRecv _).andThen fun _ => ?_
  refine failsFast_rdmaAccept.andThen fun _ => ?_
  refine (failsFast_pollComp List.mem_cons_self _ _).andThen fun _ => ?_
  refine (failsFast_lift fun _ => id).andThen fun _ => ?_
  refine (failsFast_ibvPostSend _).andThen fun _ => ?_
  refine (failsFast_pollComp List.mem_cons_self _ _).andThen fun _ => ?_
  exact (failsFast_lift fun _ => id).andThen fun _ => trivial

theorem failsFast_accept (gpuOrdinal : Int) (gpuBuffers : List GPUMemBuffer) :
    FailsFast ["accept"] (accept gpuOrdinal gpuBuffers) := by
  refine failsFast_ibvQueryQp.andThen fun _ => ?_
  refine (failsFast_ibvModifyQp _).andThen fun _ => ?_
  refine (failsFast_lift fun _ => id).andThen fun _ => ?_
  refine (failsFast_ibvRegMr _ _ _).andThen fun _ => ?_
  refine (failsFast_cudaDevicePrimaryCtxRetain _).andThen fun _ => ?_
  refine failsFast_cudaSetCurrentCtx.andThen fun _ => ?_
  refine (failsFast_registerLoop _ _ _).andThen fun _ => ?_
  refine (failsFast_establishConn _ _).andThen fun _ => ?_
  refine (failsFast_serializeInto _ _).andThen fun _ => ?_
  refine (failsFast_ofExcept _).andThen fun _ => ?_
  refine (failsFast_ibvPostSend _).andThen fun _ => ?_
  exact (failsFast_pollComp List.mem_cons_self _ _).andThen fun _ => trivial

theorem failsFast_handleNotification (cpuMr : IbvMr) (cpuBuffer : MemBuffer) :
    FailsFast ["handle_request"] (handleNotification cpuMr cpuBuffer) := by
  refine (failsFast_ibvPostRecv _).andThen fun _ => ?_
  refine (failsFast_pollComp List.mem_cons_self _ _).andThen fun wc => ?_
  split
  · exact (failsFast_slicePage _ _).andThen fun _ => failsFast_ofExcept _
  · trivial

end Server

namespace Client

theorem failsFast_establishConn (cpuMr : IbvMr) (cpuBuffer : MemBuffer) :
    FailsFast ["establish_conn", "connect"] (establishConn cpuMr cpuBuffer) := by
  refine (failsFast_lift fun _ => id).andThen fun _ => ?_
  refine (failsFast_ibvPostRecv _).andThen fun _ => ?_
  refine failsFast_rdmaConnect.andThen fun _ => ?_
  refine (failsFast_lift fun _ => id).andThen fun _ => ?_
  refine (failsFast_ibvPostSend _).andThen fun _ => ?_
  refine (failsFast_pollComp List.mem_cons_self _ _).andThen fun _ => ?_
  refine (failsFast_pollComp List.mem_cons_self _ _).andThen fun _ => ?_
  exact (failsFast_lift fun _ => id).andThen fun _ => trivial

theorem failsFast_connect (gpuOrdinal : Int) (gpuBuffers : List GPUMemBuffer) :
    FailsFast ["establish_conn", "connect"] (connect gpuOrdinal gpuBuffers) := by
  refine (failsFast_ibvModifyQp _).andThen fun _ => ?_
  refine (failsFast_lift fun _ => id).andThen fun _ => ?_
  refine (failsFast_ibvRegMr _ _ _).andThen fun _ => ?_
  refine (failsFast_cudaDevicePrimaryCtxRetain _).andThen fun _ => ?_
  refine failsFast_cudaSetCurrentCtx.andThen fun _ => ?_
  refine (failsFast_registerLoop _ _ _).andThen fun _ => ?_
  refine (failsFast_establishConn _ _).andThen fun _ => ?_
  refine (failsFast_ibvPostRecv _).andThen fun _ => ?_
  refine (failsFast_pollComp (List.mem_cons_of_mem _ List.mem_cons_self) _ _).andThen fun wc => ?_
  split
  · trivial
  · exact (failsFast_slicePage _ _).andThen fun _ => (failsFast_ofExcept _).andThen fun _ => trivial

theorem failsFast_disconnect (conn : Connection) (cpuMr : IbvMr) (cpuBuffer : MemBuffer) :
    FailsFast ["write_metadata"] (disconnect conn cpuMr cpuBuffer) := by
  refine (failsFast_serializeInto _ _).andThen fun _ => ?_
  refine (failsFast_ofExcept _).andThen fun _ => ?_
  refine (failsFast_lift fun _ => id).andThen fun _ => ?_
  refine (failsFast_writeMetadata List.mem_cons_self _ _ _ _ _).andThen fun _ => ?_
  exact failsFast_rdmaDisconnect

end Client

/-- **The first failure.** In every exchange with the environment, a call of a function of the
transport layer that fails is the last call of the function, and the function has returned an error
that carries the name of the C call with its `errno` or code, or, for a completion with a bad
status, the operation with that status. -/
theorem stopsAt_first_failure (gpuOrdinal : Int) (gpuBuffers : List GPUMemBuffer)
    (conn : Connection) (mr : IbvMr) (cpuBuffer : MemBuffer) (offset metadataSize : UInt16)
    (localBufferAddr remoteBufferAddr : UInt64) (size : UInt32) :
    StopsAt ["accept"] (Server.accept gpuOrdinal gpuBuffers) ∧
      StopsAt ["establish_conn", "connect"] (Client.connect gpuOrdinal gpuBuffers) ∧
      StopsAt ["handle_request"] (Server.handleNotification mr cpuBuffer) ∧
      StopsAt ["write"] (write conn mr localBufferAddr remoteBufferAddr size) ∧
      StopsAt ["read"] (read conn mr localBufferAddr remoteBufferAddr size) ∧
      StopsAt ["write_metadata"] (writeMetadata conn mr cpuBuffer offset metadataSize) ∧
      StopsAt ["write_metadata"] (Client.disconnect conn mr cpuBuffer) ∧
      StopsAt [] (cudaDevicePrimaryCtxRelease gpuOrdinal) :=
  ⟨(Server.failsFast_accept _ _).stopsAt, (Client.failsFast_connect _ _).stopsAt,
    (Server.failsFast_handleNotification _ _).stopsAt, (failsFast_write _ _ _ _ _).stopsAt,
    (failsFast_read _ _ _ _ _).stopsAt,
    (failsFast_writeMetadata List.mem_cons_self _ _ _ _ _).stopsAt,
    (Client.failsFast_disconnect _ _ _).stopsAt,
    (failsFast_cudaDevicePrimaryCtxRelease _).stopsAt⟩

end Rules

end RdmaTransport
