import RdmaTransport.Fallible
import RdmaTransport.Vllm.Client
import RdmaTransport.Vllm.Server

/-!
# Which operations a function performs

Setting up a connection calls the verbs, the connection manager and the CUDA driver and works on
memory of its own; it does not touch the completion table, starts no thread, gives nothing back and
aborts nothing. Handling a notification posts, polls and reads, and may abort. Only the listener
starts threads, and only the listener releases what the handlers have retained.

Once the two sides know each other's page, whatever either of them posts with the key of its own
page it posts over the whole page: `OnPage`.

## Main definitions

* `SettingUp`, `Exchanging`, `Handling`, `Serving`, `Listening` — the operations of each part
* `OnPage` — the operations that leave the key of a page to the page
* `Posting` — the operations of a worker that posts requests of one kind
* `KeysApart` — no GPU buffer has the key of the page

## Main results

* `Server.only_accept`, `Server.only_handler`, `Server.only_listen` — the server's functions
* `Client.only_arm`, `Client.only_worker` — the client's worker posts what its commands stand for
-/

namespace RdmaTransport

open Interaction

/-- The operations that set up a connection. -/
def SettingUp : Op → Prop
  | .ibvPostSend _ | .ibvPostRecv _ | .ibvPollCq _ | .ibvRegMr _ _ _ | .ibvQueryQp => True
  | .ibvModifyQp _ | .rdmaAccept | .rdmaConnect | .cuDeviceGet _ => True
  | .cuDevicePrimaryCtxRetain | .cuCtxSetCurrent | .newPage | .writePage _ _ => True
  | .letConn _ | .readConn _ => True
  | _ => False

/-- The operations that exchange the pages of the two sides. -/
def Exchanging : Op → Prop
  | .ibvPostSend _ | .ibvPostRecv _ | .ibvPollCq _ | .rdmaAccept | .letConn _ | .readConn _ => True
  | _ => False

/-- The whole page, with the key of its region. -/
def pageSge (cpuMr : IbvMr) (cpuBuffer : MemBuffer) : IbvSge :=
  ⟨cpuBuffer.ptr, UInt32.ofNat cpuBufferBaseSize, cpuMr.lkey⟩

/-- The operations that wait for a notification on a page, and those that close a connection. -/
def Handling (cpuMr : IbvMr) (cpuBuffer : MemBuffer) : Op → Prop
  | .ibvPostRecv wr => wr.sge = pageSge cpuMr cpuBuffer
  | .ibvPollCq _ | .readPage _ | .rdmaDisconnect | .panic _ => True
  | .observe (.info _) | .observe (.error _ _) => True
  | _ => False

/-- The operations that serve a connection. -/
def Serving (cpuMr : IbvMr) (cpuBuffer : MemBuffer) : Op → Prop
  | .observe (.decoded _) | .lockReqs | .putReqs _ | .unlockReqs => True
  | op => Handling cpuMr cpuBuffer op

/-- The operations that take connections. -/
def Listening : Op → Prop
  | .select | .spawn | .cuDeviceGet _ | .cuDevicePrimaryCtxRelease | .panic _ => True
  | .observe (.info _) => True
  | _ => False

/-- The flag `IBV_SEND_INLINE` is set: the card reads the range while the request is posted, and the
key is not used. -/
def IbvSendWr.isInline (wr : IbvSendWr) : Bool := wr.sendFlags &&& ibvSendInline != 0

theorem IbvSendWr.isInline_of_flags {wr : IbvSendWr} (h : wr.sendFlags = ibvSendInline) :
    wr.isInline = true := by
  rw [isInline, h]
  decide

/-- The operations that, of the ranges they post with the key of a page, post the page only. No page
is made. -/
def OnPage (cpuMr : IbvMr) (cpuBuffer : MemBuffer) : Op → Prop
  | .newPage => False
  | .ibvPostSend wr =>
    wr.isInline = true ∨ wr.sge = pageSge cpuMr cpuBuffer ∨ wr.sge.lkey ≠ cpuMr.lkey
  | .ibvPostRecv wr => wr.sge = pageSge cpuMr cpuBuffer
  | _ => True

/-- The operations of a worker, as far as the work requests it posts are of the kind `Q`. -/
def Posting (Q : IbvSendWr → Prop) : Op → Prop
  | .ibvPostSend wr => Q wr
  | .ibvPollCq _ | .rdmaDisconnect | .writePage _ _ | .recvCmd | .lockReqs | .putReqs _ => True
  | .unlockReqs | .overflow | .observe _ | .panic _ => True
  | _ => False

theorem posting_mono {Q R : IbvSendWr → Prop} (h : ∀ wr, Q wr → R wr) {op : Op}
    (hop : Posting Q op) : Posting R op := by
  cases op with
  | ibvPostSend wr => exact h wr hop
  | _ => exact hop

/-- No GPU buffer has the key of the page. -/
def KeysApart (cpuMr : IbvMr) (localGpuBuffers : LocalGpuBuffers) : Prop :=
  ∀ k q, localGpuBuffers.lookup k = some q → q.1.lkey ≠ cpuMr.lkey

variable {P : Op → Prop} {α β : Type} {cpuMr : IbvMr} {cpuBuffer : MemBuffer}

/-! ### Shared parts -/

theorem only_ibvRegMr {addr : UInt64} {length : ℕ} {access : UInt32}
    (h : P (.ibvRegMr addr length access)) : (ibvRegMr addr length access).run.Only P := by
  refine ⟨h, ?_⟩
  intro r
  cases r <;> trivial

theorem only_pollComp {cq : Cq} {op what : String} (h : P (.ibvPollCq cq)) :
    (pollComp cq op what).run.Only P := by
  rw [run_pollComp]
  exact Fallible.only_call h

theorem only_postAndPoll {wr : IbvSendWr} {op what : String} (hpost : P (.ibvPostSend wr))
    (hpoll : P (.ibvPollCq .send)) : (postAndPoll wr op what).run.Only P :=
  Fallible.only_andThen (Fallible.only_call hpost) fun _ _ =>
    Fallible.only_andThen (only_pollComp hpoll) fun _ _ => trivial

theorem only_cudaDevicePrimaryCtxRetain {gpuOrdinal : Int} (hget : P (.cuDeviceGet gpuOrdinal))
    (hretain : P .cuDevicePrimaryCtxRetain) :
    (cudaDevicePrimaryCtxRetain gpuOrdinal).run.Only P :=
  Fallible.only_andThen ⟨hget, fun _ => trivial⟩ fun _ _ =>
    Fallible.only_andThen (Fallible.only_ofExcept _) fun _ _ => Fallible.only_call hretain

theorem only_registerLoop {body : β → IbvMr → GPUMemBuffer → β} (bufs : List GPUMemBuffer) (acc : β)
    (h : ∀ addr length access, P (.ibvRegMr addr length access)) :
    (registerLoop body bufs acc).run.Only P := by
  induction bufs generalizing acc with
  | nil => trivial
  | cons buffer rest ih =>
    exact Fallible.only_andThen (only_ibvRegMr (h _ _ _)) fun _ _ => ih _

theorem only_serializeInto {bytes : List UInt8}
    (h : P (.writePage cpuBuffer bytes)) : (serializeInto cpuBuffer bytes).Only P := by
  refine ⟨h, fun _ => ?_⟩
  simp only [Prog.ret_bind]
  split <;> trivial

theorem only_slicePage {size : ℕ} (hread : P (.readPage cpuBuffer))
    (hpanic : P (.panic (sliceMsg size))) : (slicePage cpuBuffer size).Only P := by
  refine ⟨hread, fun _ => ?_⟩
  simp only [Prog.ret_bind]
  split
  · trivial
  · exact Task.only_panic hpanic

/-! ### The server -/

namespace Server

theorem only_establishConn (cpuMr : IbvMr) (cpuBuffer : MemBuffer) :
    (establishConn cpuMr cpuBuffer).run.Only Exchanging := by
  refine Fallible.only_andThen (Fallible.only_call trivial) fun _ _ => ?_
  refine Fallible.only_andThen (Fallible.only_call trivial) fun _ _ => ?_
  refine Fallible.only_andThen (Fallible.only_call trivial) fun _ _ => ?_
  refine Fallible.only_andThen (only_pollComp trivial) fun _ _ => ?_
  refine Fallible.only_andThen (Fallible.only_call trivial) fun _ _ => ?_
  refine Fallible.only_andThen (Fallible.only_call trivial) fun _ _ => ?_
  refine Fallible.only_andThen (only_pollComp trivial) fun _ _ => ?_
  exact ⟨trivial, fun _ => trivial⟩

theorem settingUp_of_exchanging (op : Op) (h : Exchanging op) : SettingUp op := by
  cases op <;> first | exact h.elim | trivial

/-- What `accept` does once its page is registered. -/
def acceptRegistered (gpuOrdinal : Int) (gpuBuffers : List GPUMemBuffer) (cpuMr : IbvMr)
    (cpuBuffer : MemBuffer) : Fallible (Connection × (IbvMr × MemBuffer) × LocalGpuBuffers) := do
  cudaDevicePrimaryCtxRetain gpuOrdinal
  cudaSetCurrentCtx
  let (conns, localGpuBufferMap) ← registerLoop offer gpuBuffers (⟨[]⟩, ∅)
  let clientConn ← establishConn cpuMr cpuBuffer
  let written ← (serializeInto cpuBuffer conns.serialize : Task _)
  Fallible.ofExcept (mapErr "accept" written)
  rdmaPostWriteWithOpcode cpuBuffer.ptr cpuBufferBaseSize (some cpuMr) ibvSendSignaled
    clientConn.basePtr clientConn.mrRkey .rdmaWriteWithImm (UInt32.ofNat conns.serializedSize)
  let _ ← pollComp .send "accept" "poll_write_comp"
  pure (clientConn, (cpuMr, cpuBuffer), localGpuBufferMap)

theorem accept_eq (gpuOrdinal : Int) (gpuBuffers : List GPUMemBuffer) :
    accept gpuOrdinal gpuBuffers =
      ibvQueryQp.andThen fun _ =>
      (ibvModifyQp qpAccess).andThen fun _ =>
      (Fallible.lift (Task.perform .newPage)).andThen fun cpuBuffer =>
      (ibvRegMr cpuBuffer.ptr cpuBuffer.getSize mrAccess).andThen fun cpuMr =>
      acceptRegistered gpuOrdinal gpuBuffers cpuMr cpuBuffer := rfl

theorem only_acceptRegistered (gpuOrdinal : Int) (gpuBuffers : List GPUMemBuffer) (cpuMr : IbvMr)
    (cpuBuffer : MemBuffer) :
    (acceptRegistered gpuOrdinal gpuBuffers cpuMr cpuBuffer).run.Only SettingUp := by
  refine Fallible.only_andThen (only_cudaDevicePrimaryCtxRetain trivial trivial) fun _ _ => ?_
  refine Fallible.only_andThen (Fallible.only_call trivial) fun _ _ => ?_
  refine Fallible.only_andThen (only_registerLoop _ _ fun _ _ _ => trivial) fun _ _ => ?_
  refine Fallible.only_andThen ((only_establishConn _ _).mono settingUp_of_exchanging) fun _ _ => ?_
  refine Fallible.only_andThen ((only_serializeInto trivial).bind fun _ _ => trivial) fun _ _ => ?_
  refine Fallible.only_andThen (Fallible.only_ofExcept _) fun _ _ => ?_
  refine Fallible.only_andThen (Fallible.only_call trivial) fun _ _ => ?_
  refine Fallible.only_andThen (only_pollComp trivial) fun _ _ => ?_
  trivial

theorem only_accept (gpuOrdinal : Int) (gpuBuffers : List GPUMemBuffer) :
    (accept gpuOrdinal gpuBuffers).run.Only SettingUp := by
  rw [accept_eq]
  refine Fallible.only_andThen (Fallible.only_call trivial) fun _ _ => ?_
  refine Fallible.only_andThen (Fallible.only_call trivial) fun _ _ => ?_
  refine Fallible.only_andThen (Fallible.only_call trivial) fun _ _ => ?_
  refine Fallible.only_andThen (only_ibvRegMr trivial) fun _ _ => ?_
  exact only_acceptRegistered _ _ _ _

theorem only_handleNotification (cpuMr : IbvMr) (cpuBuffer : MemBuffer) :
    (handleNotification cpuMr cpuBuffer).run.Only (Handling cpuMr cpuBuffer) := by
  rw [run_handleNotification]
  refine ⟨rfl, fun r => ?_⟩
  dsimp only
  split
  · trivial
  refine ⟨trivial, fun p => ?_⟩
  dsimp only
  split
  · trivial
  split
  · refine ⟨trivial, fun page => ?_⟩
    dsimp only [decodePage]
    split
    · trivial
    · exact Task.only_panic trivial
  · trivial

theorem only_handlerEnd (hdisconnect : P .rdmaDisconnect)
    (hpanic : P (.panic Task.unwrapErrMsg)) : handlerEnd.Only P :=
  ⟨hdisconnect, fun _ => (Task.only_unwrap hpanic).bind fun _ _ => trivial⟩

theorem only_handlerTail (notification : Notification)
    (hdecoded : P (.observe (.decoded notification))) (hinfo : ∀ msg, P (.observe (.info msg)))
    (hlock : P .lockReqs) (hput : ∀ reqs, P (.putReqs reqs)) (hunlock : P .unlockReqs) :
    (handlerTail notification).Only P := by
  refine ⟨hdecoded, fun _ => ?_⟩
  dsimp only
  split
  · exact ⟨hinfo _, fun _ => trivial⟩
  split
  · exact ⟨hlock, fun _ => ⟨hput _, fun _ => ⟨hunlock, fun _ => trivial⟩⟩⟩
  · trivial

theorem serving_of_handling (op : Op) (h : Handling cpuMr cpuBuffer op) :
    Serving cpuMr cpuBuffer op := by
  unfold Serving
  split <;> trivial

theorem only_handler (cpuMr : IbvMr) (cpuBuffer : MemBuffer) (n : ℕ) :
    (handler cpuMr cpuBuffer n).Only (Serving cpuMr cpuBuffer) := by
  rw [handler_eq]
  refine (Prog.Only.loop ?_ n).bind ?_
  · rw [handlerIteration_eq]
    refine ((only_handleNotification _ _).mono serving_of_handling).bind ?_
    intro r _
    cases r with
    | ok notification =>
      exact only_handlerTail notification trivial (fun _ => trivial) trivial (fun _ => trivial)
        trivial
    | error e => exact Task.only_panic trivial
  · intro o _
    cases o with
    | some _ => exact only_handlerEnd trivial trivial
    | none => trivial

theorem onPage_of_serving (op : Op) (h : Serving cpuMr cpuBuffer op) :
    OnPage cpuMr cpuBuffer op := by
  cases op <;> first | exact h | exact h.elim | trivial

theorem only_cudaDevicePrimaryCtxRelease (gpuOrdinal : Int) :
    (cudaDevicePrimaryCtxRelease gpuOrdinal).run.Only Listening :=
  Fallible.only_andThen ⟨trivial, fun _ => trivial⟩ fun _ _ =>
    Fallible.only_andThen (Fallible.only_ofExcept _) fun _ _ => Fallible.only_call trivial

theorem only_listenIteration (gpuOrdinal : Int) :
    (listenIteration gpuOrdinal).Only Listening := by
  refine ⟨trivial, fun s => ?_⟩
  cases s with
  | command =>
    refine (only_cudaDevicePrimaryCtxRelease gpuOrdinal).bind fun _ _ => ?_
    exact (Task.only_unwrap trivial).bind fun _ _ => trivial
  | connection => exact ⟨trivial, fun _ => ⟨trivial, fun _ => trivial⟩⟩
  | neither => exact Task.only_panic trivial

theorem only_listen (gpuOrdinal : Int) (n : ℕ) : (listen gpuOrdinal n).Only Listening := by
  refine (Prog.Only.loop (only_listenIteration gpuOrdinal) n).bind ?_
  intro o _
  cases o with
  | some _ => exact ⟨trivial, fun _ => trivial⟩
  | none => trivial

end Server

/-! ### The client -/

namespace Client

variable {s : Session}

/-- An announcement posts its request, if it fits the page. -/
theorem only_completeArm (reqId : ReqId) :
    (completeArm s reqId).Only (Posting (· ∈ requests s (.complete reqId))) := by
  by_cases h : (announcement reqId).serializedSize ≤ cpuBufferBaseSize
  · have hmem : announcementWr s reqId ∈ requests s (.complete reqId) := by simp [requests, h]
    rw [completeArm_of_fits h]
    refine ⟨trivial, fun _ => ⟨trivial, fun _ => ⟨trivial, fun _ => ⟨trivial, fun _ => ?_⟩⟩⟩⟩
    refine (only_postAndPoll hmem trivial).bind ?_
    intro r _
    cases r with
    | ok _ => exact ⟨trivial, fun _ => ⟨trivial, fun _ => trivial⟩⟩
    | error e => exact ⟨trivial, fun _ => ⟨trivial, fun _ => ⟨trivial, fun _ => trivial⟩⟩⟩
  · rw [completeArm_of_not_fits h]
    exact ⟨trivial, fun _ => Task.only_panic trivial⟩

/-- A transfer posts its request, if it knows both base pointers. -/
theorem only_transferArm
    {op : Connection → IbvMr → UInt64 → UInt64 → UInt32 → Fallible Unit} {opcode : WrOpcode}
    {loc rem : TensorBlock} (hop : IsTransfer op opcode) (hsize : loc.size > 0) :
    (transferArm s op loc rem).Only (Posting (· ∈ transferRequests s opcode loc rem)) := by
  cases hrem : s.remoteGpuBuffers.lookup rem.basePtr with
  | none =>
    rw [transferArm_of_lookup_remote_none hrem]
    exact Task.only_panic trivial
  | some conn =>
    cases hloc : s.localGpuBuffers.lookup loc.basePtr with
    | none =>
      rw [transferArm_of_lookup_local_none hloc]
      exact Task.only_panic trivial
    | some q =>
      obtain ⟨name, what, hop⟩ := hop
      rw [transferArm_of_lookup hrem hloc]
      refine (Task.only_addU64 trivial).bind fun localAddr hlocal => ?_
      refine (Task.only_addU64 trivial).bind fun remoteAddr hremote => ?_
      obtain rfl := Task.returns_addU64.mp hlocal
      obtain rfl := Task.returns_addU64.mp hremote
      rw [hop]
      have hmem : transferWr opcode conn q.1 (loc.basePtr + loc.offset)
          (conn.basePtr + rem.offset) loc.size ∈ transferRequests s opcode loc rem :=
        mem_transferRequests.mpr ⟨hsize, conn, q, hrem, hloc, rfl⟩
      refine (only_postAndPoll hmem trivial).bind ?_
      intro r _
      cases r with
      | ok _ => trivial
      | error e => exact ⟨trivial, fun _ => trivial⟩

theorem only_disconnectArm : (disconnectArm s).Only (Posting (· ∈ requests s .disconnect)) := by
  rw [disconnectArm_eq]
  have hmem : doneWr s ∈ requests s .disconnect := List.mem_singleton_self _
  refine ⟨trivial, fun _ => ⟨trivial, fun _ => ⟨trivial, fun _ => ?_⟩⟩⟩
  refine (only_postAndPoll hmem trivial).bind ?_
  intro r _
  cases r with
  | ok _ => exact ⟨trivial, fun _ => (Task.only_unwrap trivial).bind fun _ _ => trivial⟩
  | error e => exact Task.only_panic trivial

/-- **Every command** posts the request that it stands for, or none. -/
theorem only_arm (s : Session) (cmd : Command) :
    (arm s cmd).Only (Posting (· ∈ requests s cmd)) := by
  cases cmd with
  | send loc rem =>
    rw [arm]
    split
    next hsize => exact only_transferArm isTransfer_write hsize
    · trivial
  | recv loc rem =>
    rw [arm]
    split
    next hsize => exact only_transferArm isTransfer_read hsize
    · trivial
  | complete reqId => exact only_completeArm reqId
  | disconnect => exact only_disconnectArm

/-- **The worker** posts what commands stand for. -/
theorem only_worker (s : Session) (n : ℕ) :
    (worker s n).Only (Posting fun wr => ∃ cmd, wr ∈ requests s cmd) := by
  refine Prog.Only.loop ?_ n
  refine ⟨trivial, fun cmd => ?_⟩
  cases cmd with
  | none => trivial
  | some cmd => exact (only_arm s cmd).mono fun _ => posting_mono fun _ h => ⟨cmd, h⟩

/-- A transfer posts with the key of a GPU buffer, and everything else posts the page. -/
theorem onPage_of_requests (hkeys : KeysApart s.cpuMr s.localGpuBuffers) {cmd : Command}
    {wr : IbvSendWr} (h : wr ∈ requests s cmd) : OnPage s.cpuMr s.cpuBuffer (.ibvPostSend wr) := by
  have htransfer (opcode : WrOpcode) (loc rem : TensorBlock)
      (h : wr ∈ transferRequests s opcode loc rem) :
      OnPage s.cpuMr s.cpuBuffer (.ibvPostSend wr) := by
    obtain ⟨-, conn, q, -, hloc, rfl⟩ := mem_transferRequests.mp h
    exact .inr (.inr (hkeys _ _ hloc))
  cases cmd with
  | send loc rem => exact htransfer _ _ _ h
  | recv loc rem => exact htransfer _ _ _ h
  | complete reqId =>
    rw [requests] at h
    split at h
    · rw [List.mem_singleton.mp h]
      exact .inr (.inl rfl)
    · cases h
  | disconnect =>
    rw [List.mem_singleton.mp h]
    exact .inr (.inl rfl)

/-- **The worker** leaves the key of the page to the page. -/
theorem onPage_worker (hkeys : KeysApart s.cpuMr s.localGpuBuffers) (n : ℕ) :
    (worker s n).Only (OnPage s.cpuMr s.cpuBuffer) := by
  refine (only_worker s n).mono fun op hop => ?_
  cases op with
  | ibvPostSend wr =>
    obtain ⟨cmd, hwr⟩ := hop
    exact onPage_of_requests hkeys hwr
  | _ => first | exact hop.elim | trivial

end Client

end RdmaTransport
