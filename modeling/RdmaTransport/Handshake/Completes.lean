import RdmaTransport.Footprints
import RdmaTransport.Registration
import RdmaTransport.Handshake.Agreement
import RdmaTransport.Handshake.Effects
import RdmaTransport.Handshake.Registered

/-!
# Each half of the handshake completes

If no call fails, `accept` and `connect` return `Ok`, with two exceptions that are no failures of a
call: the server's list may not fit its page, and a receive of the client may have been flushed.
What the client finds in its page is a third, but only as long as nothing is known of the server:
the client refuses or even aborts over a page that does not hold a list.

## Main definitions

* `PeerView.goes` — the answers of an environment in which no call fails
* `Garbled` — what the client has been told is not a list

## Main results

* `Server.always_acceptTask_completes`, `Client.always_connect_completes` — how the two halves end
-/

namespace RdmaTransport

open Interaction

/-! ### Calls that succeed -/

/-- No call fails, and a poll finds a completion. -/
def PeerView.Choice.succeeds : PeerView.Choice → Bool
  | .ret r => CRet.isOk r
  | .code c => c == 0
  | .polled (.entry _) => true
  | .polled _ => false
  | .keys ks => ks.isSome
  | _ => true

/-- The same, and where `clean` says so the completion is that of a request that has succeeded. -/
def PeerView.goes {St : Type} (clean : Cq → Bool) (op : Op) (_ : PeerView St)
    (choice : PeerView.Choice) : Bool :=
  choice.succeeds &&
    match op, choice with
    | .ibvPollCq cq, .polled (.entry wc) => !clean cq || wc.status == ibvWcSuccess
    | _, _ => true

section Calls

variable {St α : Type} {advance : St → Event → St} {clean : Cq → Bool}
  {g : (op : Op) → PeerView St → PeerView.Choice → Bool} {I : Op → PeerView St → Prop}

theorem succeeds_of_goes {op : Op} {v : PeerView St} {c : PeerView.Choice}
    (h : v.goes clean op c = true) : c.succeeds = true := ((Bool.and_eq_true _ _).mp h).1

theorem status_of_goes {cq : Cq} {v : PeerView St} {wc : IbvWc}
    (h : v.goes clean (.ibvPollCq cq) (.polled (.entry wc)) = true) (hclean : clean cq = true) :
    wc.status = ibvWcSuccess := by
  simpa [PeerView.goes, PeerView.Choice.succeeds, hclean] using h

/-- A call that returns an integer. -/
theorem exists_ok_of_ret {name : String} {c : PeerView.Choice} {f : CRet → PeerView St} {r : CRet}
    {v' : PeerView St} (hr : (c.ret?.map fun r => (r, f r)) = some (r, v'))
    (hc : c.succeeds = true) : ∃ a, rdmaCall name r = .ok a := by
  obtain ⟨r', hret, heq⟩ := Option.map_eq_some_iff.mp hr
  cases heq
  cases c <;> cases hret
  exact ⟨(), rdmaCall_of_isOk hc⟩

/-- A CUDA call. -/
theorem cudaCall_of_code {name : String} {c : PeerView.Choice} {v v' : PeerView St} {code : UInt32}
    (hr : (c.code?.map fun code => (code, v)) = some (code, v')) (hc : c.succeeds = true) :
    cudaCall name code = .ok () := by
  obtain ⟨code', hcode, heq⟩ := Option.map_eq_some_iff.mp hr
  cases heq
  cases c <;> cases hcode
  have hzero : code = 0 := beq_iff_eq.mp hc
  exact if_pos hzero

/-- The environment lets no call fail, and the rule allows what setting up a connection takes. -/
structure Obliging (clean : Cq → Bool) (g : (op : Op) → PeerView St → PeerView.Choice → Bool)
    (I : Op → PeerView St → Prop) : Prop where
  /-- The environment. -/
  goes : ∀ op v c, g op v c = true → v.goes clean op c = true
  /-- The rule. -/
  allows : ∀ op v, SettingUp op → I op v

theorem completes_call (h : Obliging clean g I) (op : Op) {f : op.Ans → Except TransportErrors α}
    (hop : SettingUp op)
    (hok : ∀ v c r v', PeerView.handler advance op v c = some (r, v') → c.succeeds = true →
      ∃ a, f r = .ok a) :
    Fallible.Completes (Handler.within (PeerView.handler advance) g) I
      (Task.call op fun r => .ret (f r)) := by
  refine Fallible.completes_call (fun v => h.allows op v hop) ?_
  intro v c r v' hr
  obtain ⟨hgo, hr⟩ := Handler.within_eq_some.mp hr
  exact hok v c r v' hr (succeeds_of_goes (h.goes op v c hgo))

theorem completes_ibvQueryQp (h : Obliging clean g I) :
    ibvQueryQp.Completes (Handler.within (PeerView.handler advance) g) I :=
  completes_call (f := rdmaCall "ibv_query_qp") h .ibvQueryQp trivial
    fun _ _ _ _ => exists_ok_of_ret

theorem completes_ibvModifyQp (h : Obliging clean g I) {flags : UInt32} :
    (ibvModifyQp flags).Completes (Handler.within (PeerView.handler advance) g) I :=
  completes_call (f := rdmaCall "ibv_modify_qp") h (.ibvModifyQp flags) trivial
    fun _ _ _ _ => exists_ok_of_ret

theorem completes_ibvPostRecv (h : Obliging clean g I) {wr : IbvRecvWr} :
    (ibvPostRecv wr).Completes (Handler.within (PeerView.handler advance) g) I :=
  completes_call (f := rdmaCall "ibv_post_recv") h (.ibvPostRecv wr) trivial
    fun _ _ _ _ => exists_ok_of_ret

theorem completes_ibvPostSend (h : Obliging clean g I) {wr : IbvSendWr} :
    (ibvPostSend wr).Completes (Handler.within (PeerView.handler advance) g) I :=
  completes_call (f := rdmaCall "ibv_post_send") h (.ibvPostSend wr) trivial
    fun _ _ _ _ => exists_ok_of_ret

theorem completes_rdmaAccept (h : Obliging clean g I) :
    rdmaAccept.Completes (Handler.within (PeerView.handler advance) g) I :=
  completes_call (f := rdmaCall "rdma_accept") h .rdmaAccept trivial fun _ _ _ _ => exists_ok_of_ret

theorem completes_rdmaConnect (h : Obliging clean g I) :
    rdmaConnect.Completes (Handler.within (PeerView.handler advance) g) I :=
  completes_call (f := rdmaCall "rdma_connect") h .rdmaConnect trivial
    fun _ _ _ _ => exists_ok_of_ret

theorem completes_cudaSetCurrentCtx (h : Obliging clean g I) :
    cudaSetCurrentCtx.Completes (Handler.within (PeerView.handler advance) g) I :=
  completes_call (f := cudaCall "cuCtxSetCurrent") h .cuCtxSetCurrent trivial
    fun _ _ _ _ hr hc => ⟨(), cudaCall_of_code hr hc⟩

theorem completes_cudaDevicePrimaryCtxRetain (h : Obliging clean g I) {ordinal : Int} :
    (cudaDevicePrimaryCtxRetain ordinal).Completes (Handler.within (PeerView.handler advance) g)
      I := by
  intro v
  refine ⟨h.allows _ v trivial, ?_⟩
  intro c code v' hr
  obtain ⟨hgo, hr⟩ := Handler.within_eq_some.mp hr
  have hcode : cudaCall "cuDeviceGet" code = .ok () :=
    cudaCall_of_code hr (succeeds_of_goes (h.goes _ v c hgo))
  have hget : (Fallible.ofExcept (cudaCall "cuDeviceGet" code)).Completes
      (Handler.within (PeerView.handler advance) g) I := fun _ => ⟨(), hcode⟩
  exact hget.andThen (fun _ _ =>
    completes_call (f := cudaCall "cuDevicePrimaryCtxRetain") h .cuDevicePrimaryCtxRetain trivial
      fun _ _ _ _ hr hc => ⟨(), cudaCall_of_code hr hc⟩) v'

theorem completes_ibvRegMr (h : Obliging clean g I) {addr : UInt64} {length : ℕ}
    {access : UInt32} :
    (ibvRegMr addr length access).Completes (Handler.within (PeerView.handler advance) g) I := by
  intro v
  refine ⟨h.allows _ v trivial, ?_⟩
  intro c ks v' hr
  obtain ⟨hgo, hr⟩ := Handler.within_eq_some.mp hr
  obtain ⟨ks', hkeys, heq⟩ := Option.map_eq_some_iff.mp hr
  cases heq
  have hc := succeeds_of_goes (h.goes _ v c hgo)
  cases c <;> cases hkeys
  cases ks with
  | some keys => exact ⟨_, rfl⟩
  | none => cases hc

theorem completes_registerLoop (h : Obliging clean g I) {body : α → IbvMr → GPUMemBuffer → α}
    (bufs : List GPUMemBuffer) (acc : α) :
    (registerLoop body bufs acc).Completes (Handler.within (PeerView.handler advance) g) I := by
  induction bufs generalizing acc with
  | nil => exact fun v => ⟨acc, rfl⟩
  | cons buffer rest ih => exact (completes_ibvRegMr h).andThen fun _ _ => ih _

theorem completes_pollComp (h : Obliging clean g I) {cq : Cq} {op what : String}
    (hclean : clean cq = true) :
    (pollComp cq op what).Completes (Handler.within (PeerView.handler advance) g) I := by
  intro v
  rw [run_pollComp]
  refine ⟨h.allows _ v trivial, ?_⟩
  intro c p v' hr
  obtain ⟨hgo, hr⟩ := Handler.within_eq_some.mp hr
  have hgo := h.goes _ v c hgo
  obtain ⟨p', hpolled, heq⟩ := Option.map_eq_some_iff.mp hr
  cases heq
  cases c <;> cases hpolled
  cases p with
  | entry wc => exact ⟨wc, compResult_entry_of_success (status_of_goes hgo hclean)⟩
  | _ => cases succeeds_of_goes hgo

theorem completes_perform (h : Obliging clean g I) (op : Op) (hop : SettingUp op) :
    (Fallible.lift (Task.perform op)).Completes (Handler.within (PeerView.handler advance) g) I :=
  Fallible.completes_perform fun v => h.allows op v hop

theorem always_ibvPostRecv (h : Obliging clean g I) {β : Type} {wr : IbvRecvWr}
    {f : Unit → Fallible β} {E : Except TransportErrors β → PeerView St → Prop} {v : PeerView St}
    (hf : (Handler.within (PeerView.handler advance) g).Always I E (f ()).run
      (v.on advance (.receiving wr.sge.addr))) :
    (Handler.within (PeerView.handler advance) g).Always I E
      ((ibvPostRecv wr).andThen f).run v := by
  rw [Fallible.run_andThen, run_ibvPostRecv]
  refine ⟨h.allows _ v trivial, ?_⟩
  intro c r v' hr
  obtain ⟨hg, hr⟩ := Handler.within_eq_some.mp hr
  obtain ⟨_, hok⟩ : ∃ a, rdmaCall "ibv_post_recv" r = .ok a :=
    exists_ok_of_ret hr (succeeds_of_goes (h.goes _ v c hg))
  rw [eq_on_of_called hr hok]
  simp only [Prog.ret_bind, hok]
  exact hf

/-- A receive completes, with success or with an error. -/
theorem always_pollRecv (h : Obliging clean g I) {β : Type} {op what : String}
    {f : IbvWc → Fallible β} {E : Except TransportErrors β → PeerView St → Prop} {v : PeerView St}
    (hf : ∀ c wc, g (.ibvPollCq .recv) v c = true → wc.status = ibvWcSuccess →
      (Handler.within (PeerView.handler advance) g).Always I E (f wc).run
        (v.on advance (.polled .recv wc)))
    (hbad : ∀ c wc e, g (.ibvPollCq .recv) v c = true → wc.status ≠ ibvWcSuccess →
      E (.error e) (v.on advance (.polled .recv wc))) :
    (Handler.within (PeerView.handler advance) g).Always I E
      ((pollComp .recv op what).andThen f).run v := by
  rw [Fallible.run_andThen, run_pollComp]
  refine ⟨h.allows _ v trivial, ?_⟩
  intro c p v' hr
  obtain ⟨hg, hr⟩ := Handler.within_eq_some.mp hr
  have hgo := h.goes _ v c hg
  obtain ⟨p', hpolled, heq⟩ := Option.map_eq_some_iff.mp hr
  cases heq
  cases c <;> cases hpolled
  cases p with
  | entry wc =>
    by_cases hwc : wc.status = ibvWcSuccess
    · simp only [Prog.ret_bind, compResult_entry_of_success hwc]
      exact hf _ wc hg hwc
    · obtain ⟨e, he⟩ := compResult_entry_of_failed op what hwc
      simp only [Prog.ret_bind, he]
      exact hbad _ wc e hg hwc
  | _ => cases succeeds_of_goes hgo

/-- Serialising goes on in either case, with a result that tells whether the bytes fit. -/
theorem always_serializeInto {σ C β : Type} {h : Handler iface σ C} {R : Op → σ → Prop}
    {E : Except TransportErrors β → σ → Prop} {buf : MemBuffer} {bytes : List UInt8}
    {f : Except String Unit → Fallible β} {s : σ} (hR : R (.writePage buf bytes) s)
    (hfits : ∀ c s', h (.writePage buf bytes) s c = some ((), s') →
      bytes.length ≤ cpuBufferBaseSize → h.Always R E (f (.ok ())).run s')
    (hlong : ∀ c s', h (.writePage buf bytes) s c = some ((), s') →
      ¬ bytes.length ≤ cpuBufferBaseSize → h.Always R E (f (.error writeZeroMsg)).run s') :
    h.Always R E ((Fallible.lift (serializeInto buf bytes)).andThen f).run s := by
  refine ⟨hR, ?_⟩
  intro c _ s' hr
  by_cases hlen : bytes.length ≤ cpuBufferBaseSize
  · simp only [hlen, if_true]
    exact hfits c s' hr hlen
  · simp only [hlen, if_false]
    exact hlong c s' hr hlen

/-- **Setting up** completes, and what follows it starts from the regions of the buffers. -/
theorem always_setUp_completes (h : Obliging clean g I) {β : Type} {ordinal : Int}
    {body : α → IbvMr → GPUMemBuffer → α} {bufs : List GPUMemBuffer} {acc : α}
    {f : MemBuffer → IbvMr → α → Fallible β}
    {E : Except TransportErrors β → PeerView St → Prop}
    (hf : ∀ cpuBuffer cpuMr (regs : List (IbvMr × GPUMemBuffer)) v, regs.map Prod.snd = bufs →
      (Handler.within (PeerView.handler advance) g).Always I E
        (f cpuBuffer cpuMr (regs.foldl (fun acc q => body acc q.1 q.2) acc)).run v)
    (v : PeerView St) :
    (Handler.within (PeerView.handler advance) g).Always I E
      ((Fallible.lift (Task.perform .newPage)).andThen fun cpuBuffer =>
        (ibvRegMr cpuBuffer.ptr cpuBuffer.getSize mrAccess).andThen fun cpuMr =>
        (cudaDevicePrimaryCtxRetain ordinal).andThen fun _ =>
        cudaSetCurrentCtx.andThen fun _ =>
        (registerLoop body bufs acc).andThen (f cpuBuffer cpuMr)).run v := by
  refine (completes_perform h .newPage trivial).always_andThen (fun cpuBuffer v₁ _ => ?_) v
  refine (completes_ibvRegMr h).always_andThen (fun cpuMr v₂ _ => ?_) v₁
  refine (completes_cudaDevicePrimaryCtxRetain h).always_andThen (fun _ v₃ _ => ?_) v₂
  refine (completes_cudaSetCurrentCtx h).always_andThen (fun _ v₄ _ => ?_) v₃
  refine (completes_registerLoop h bufs acc).always_andThen (fun r v₅ hr => ?_) v₄
  obtain ⟨regs, hregs, -, rfl⟩ := returns_registerLoop hr
  exact hf cpuBuffer cpuMr regs v₅ hregs

end Calls

/-! ### The server -/

/-- The operations of `accept` and of the disconnect that may follow it. -/
def AcceptProper : Op → Prop
  | .observe _ | .rdmaDisconnect => True
  | op => SettingUp op

/-- The server has returned `Ok`, or its list does not fit the page. -/
def AcceptEnds (bufs : List GPUMemBuffer) (r : Except TransportErrors AcceptResult)
    (v : AcceptView) : Prop :=
  (∃ out, r = .ok out) ∨
    (Handshake.TooLong bufs ∧ ∃ own peer bytes, v.stage = .written own peer bytes)

namespace Server

variable {bufs : List GPUMemBuffer} {cpuMr : IbvMr} {cpuBuffer : MemBuffer}
  {g : (op : Op) → AcceptView → PeerView.Choice → Bool} {I : Op → AcceptView → Prop}

theorem completes_establishConn (h : Obliging (fun _ => true) g I) :
    (establishConn cpuMr cpuBuffer).Completes (Handler.within AcceptView.handler g) I := by
  refine (completes_perform h (.letConn .zero) trivial).andThen fun _ _ => ?_
  refine (completes_ibvPostRecv h).andThen fun _ _ => ?_
  refine (completes_rdmaAccept h).andThen fun _ _ => ?_
  refine (completes_pollComp h rfl).andThen fun _ _ => ?_
  refine (completes_perform h (.letConn _) trivial).andThen fun _ _ => ?_
  refine (completes_ibvPostSend h).andThen fun _ _ => ?_
  refine (completes_pollComp h rfl).andThen fun _ _ => ?_
  refine (completes_perform h (.readConn _) trivial).andThen fun conn _ => ?_
  exact fun _ => ⟨conn, rfl⟩

/-- A list that does not fit is longer than the page, whatever the keys are. -/
theorem tooLong_of_offer {regs : GpuRegs} (hregs : regs.map Prod.snd = bufs)
    (hlong : ¬ regs.offer.serialize.length ≤ cpuBufferBaseSize) : Handshake.TooLong bufs := by
  intro cs hcs
  have hoffer : regs.offer.serialize.length = 8 + 12 * bufs.length := by
    have hsize := Connections.serializedSize_eq regs.offer
    rw [GpuRegs.offer, List.length_map, ← List.length_map (f := Prod.snd), hregs] at hsize
    exact hsize
  rw [Connections.serializedSize_eq, hcs, ← hoffer]
  exact not_le.mp hlong

/-- **`accept`**, if no call fails and it follows its rule. -/
theorem always_accept_completes (gpuOrdinal : Int)
    (hgo : ∀ op v c, g op v c = true → v.goes (fun _ => true) op c = true)
    (hrule : ∀ op v c, g op v c = true → AcceptRule bufs op v) (v : AcceptView) :
    (Handler.within AcceptView.handler g).Always (fun op _ => AcceptProper op) (AcceptEnds bufs)
      (accept gpuOrdinal bufs).run v := by
  have h : Obliging (fun _ => true) g fun op _ => AcceptProper op := by
    refine ⟨hgo, ?_⟩
    intro op _ hop
    cases op <;> first | exact hop | trivial
  refine (completes_ibvQueryQp h).always_andThen (fun _ v₁ _ => ?_) v
  refine (completes_ibvModifyQp h).always_andThen (fun _ v₂ _ => ?_) v₁
  refine always_setUp_completes h (fun cpuBuffer cpuMr (regs : GpuRegs) v₃ hregs => ?_) v₂
  rw [foldl_offer]
  refine (completes_establishConn h).always_andThen (fun peer v₄ _ => ?_) v₃
  refine always_serializeInto trivial (fun c v₅ _ _ => ?_) fun c v₅ hr hlong => ?_
  · refine (completes_ibvPostSend h).always_andThen (fun _ v₆ _ => ?_) v₅
    refine (completes_pollComp h rfl).always_andThen (fun _ v₇ _ => ?_) v₆
    exact .inl ⟨_, rfl⟩
  · -- The list does not fit, and the error of `serialize_into` is returned.
    obtain ⟨hg, hr⟩ := Handler.within_eq_some.mp hr
    obtain ⟨own, peer', hknows⟩ := hrule _ v₄ c hg
    obtain ⟨_, -, heq⟩ := Option.map_eq_some_iff.mp hr
    cases heq
    refine .inr ⟨tooLong_of_offer hregs hlong, own, peer', regs.offer.serialize, ?_⟩
    simp [PeerView.on, hknows, AcceptStage.advance]

/-- `accept` does not disconnect. -/
theorem always_accept_open (gpuOrdinal : Int) :
    AcceptView.handler.Always (fun _ v => v.closed = false) (fun _ v => v.closed = false)
      (accept gpuOrdinal bufs).run (.init .start) := by
  refine Handler.Always.of_only (only_accept gpuOrdinal bufs) rfl (fun _ _ _ hv => hv) ?_
  intro op v choice r v' hop hv hr
  rcases (moves_of_handler hr).closed with hclosed | rfl
  · exact hclosed.trans hv
  · exact hop.elim

open Classical in
/-- **The server**, if no call fails: it has not disconnected when it returns `Ok`, and it returns
an error only because its list does not fit the page. -/
theorem always_acceptTask_completes (gpuOrdinal : Int) (bufs : List GPUMemBuffer) :
    (Handler.within AcceptView.handler (PeerView.goes fun _ => true)).Always
      (fun op v => AcceptProper op ∧ AcceptRule bufs op v ∧ v.closed = false)
      (fun r v => AcceptEnds bufs r v ∧ ∀ out, r = .ok out → v.closed = false)
      (acceptTask gpuOrdinal bufs).run (.init .start) := by
  have hrule : AcceptView.handler.Always (fun op v => AcceptRule bufs op v ∧ v.closed = false)
      (fun _ v => v.closed = false) (accept gpuOrdinal bufs).run (.init .start) :=
    ((ensures_accept rfl).and (always_accept_open gpuOrdinal)).mono fun _ _ h => h.2
  have haccept := hrule.rely (g := PeerView.goes fun _ => true)
    (always_accept_completes gpuOrdinal (fun _ _ _ h => ((Bool.and_eq_true _ _).mp h).1)
      (fun _ _ _ h => (of_decide_eq_true ((Bool.and_eq_true _ _).mp h).2).1) _)
  refine haccept.bind ?_
  rintro r v ⟨hends, hopen⟩
  cases r with
  | ok out => exact ⟨.inl ⟨out, rfl⟩, fun _ _ => hopen⟩
  | error e =>
    obtain ⟨_, hok⟩ | ⟨hlong, hstage⟩ := hends
    · cases hok
    refine ⟨⟨trivial, trivial, hopen⟩, ?_⟩
    intro c _ v₁ hr
    obtain ⟨-, hr⟩ := Handler.within_eq_some.mp hr
    obtain ⟨_, -, heq⟩ := Option.map_eq_some_iff.mp hr
    cases heq
    refine ⟨⟨trivial, trivial, hopen⟩, ?_⟩
    intro c r v₂ hr
    obtain ⟨hgo, hr⟩ := Handler.within_eq_some.mp hr
    obtain ⟨_, hok⟩ : ∃ a, rdmaCall "rdma_disconnect" r = .ok a :=
      exists_ok_of_ret hr (succeeds_of_goes hgo)
    obtain ⟨_, -, heq⟩ := Option.map_eq_some_iff.mp hr
    cases heq
    simp only [hok, Task.unwrap]
    exact ⟨.inr ⟨hlong, hstage⟩, by simp⟩

end Server

/-! ### The client -/

/-- What the client has been told is not a list: the completion is not that of a write with
immediate, or the page cannot be decoded. -/
def Garbled : ConnectStage → Prop
  | .notified _ _ wc => wc.opcode ≠ ibvWcRecvRdmaWithImm
  | .read _ _ wc page => ∀ (h : (ntohl wc.immData).toNat ≤ cpuBufferBaseSize) cs,
      Connections.deserialize (page.slice (ntohl wc.immData).toNat h) ≠ .ok cs
  | _ => False

/-- The operations of `connect`. It aborts only over a page that it cannot decode. -/
def ConnectProper (op : Op) (v : ConnectView) : Prop :=
  match op with
  | .panic _ => Garbled v.stage
  | .readPage _ => True
  | op => SettingUp op

/-- The client has returned `Ok`, or a receive has been flushed, or the page is not a list. -/
def ConnectEnds (r : Except TransportErrors ConnectResult) (v : ConnectView) : Prop :=
  (∃ out, r = .ok out) ∨ (∃ own, v.stage = .flushed own) ∨ Garbled v.stage

/-- Receives may be flushed, sends are not. -/
def sendsClean : Cq → Bool
  | .send => true
  | .recv => false

namespace Client

variable {cpuMr : IbvMr} {cpuBuffer : MemBuffer}
  {g : (op : Op) → ConnectView → PeerView.Choice → Bool} {I : Op → ConnectView → Prop}

/-- The exchange of pages, if no call fails and it follows its rule. -/
theorem always_establishConn_completes (h : Obliging sendsClean g I)
    (hrule : ∀ op v c, g op v c = true → ConnectRule op v) (v : ConnectView) :
    (Handler.within ConnectView.handler g).Always I
      (fun r v => (∃ own peer, r = .ok peer ∧ v.stage = .knows own peer) ∨
        ∃ e own, r = .error e ∧ v.stage = .flushed own)
      (establishConn cpuMr cpuBuffer).run v := by
  refine (completes_perform h (.letConn .zero) trivial).always_andThen (fun _ v₁ _ => ?_) v
  refine (completes_ibvPostRecv h).always_andThen (fun _ v₂ _ => ?_) v₁
  refine (completes_rdmaConnect h).always_andThen (fun _ v₃ _ => ?_) v₂
  refine (completes_perform h (.letConn _) trivial).always_andThen (fun _ v₄ _ => ?_) v₃
  refine (completes_ibvPostSend h).always_andThen (fun _ v₅ _ => ?_) v₄
  refine (completes_pollComp h rfl).always_andThen (fun _ v₆ _ => ?_) v₅
  refine always_pollRecv h (fun c wc _ _ => ?_) fun c wc e hg hwc => ?_
  · refine ⟨h.allows _ _ trivial, ?_⟩
    intro c conn v₇ hr
    obtain ⟨hg, hr⟩ := Handler.within_eq_some.mp hr
    obtain ⟨own, hheard⟩ := hrule _ _ c hg
    obtain ⟨_, -, heq⟩ := Option.map_eq_some_iff.mp hr
    cases heq
    refine .inl ⟨own, conn, rfl, ?_⟩
    rw [PeerView.on, hheard]
    rfl
  · rcases hrule _ v₆ c hg with ⟨a, own, htold⟩ | ⟨own, peer, hexpecting⟩
    · exact .inr ⟨e, own, rfl, by simp [PeerView.on, htold, ConnectStage.advance, hwc]⟩
    · exact .inr ⟨e, own, rfl, by simp [PeerView.on, hexpecting, ConnectStage.advance, hwc]⟩

/-- What the client makes of its page. -/
theorem always_decodeList {own peer : Connection} {wc : IbvWc} {v : ConnectView}
    {kept : LocalGpuBuffers} (hstage : v.stage = .notified own peer wc) :
    (Handler.within ConnectView.handler g).Always ConnectProper ConnectEnds
      ((Fallible.lift (slicePage cpuBuffer (ntohl wc.immData).toNat)).andThen fun data =>
        (Fallible.ofExcept (mapErr "connect"
          ((Connections.deserialize data).mapError decodeErrorMsg))).andThen fun cs =>
        (pure (peer, (cpuMr, cpuBuffer), kept, remoteMap cs.conns) : Fallible ConnectResult)).run
      v := by
  refine ⟨trivial, ?_⟩
  intro c page v' hr
  obtain ⟨-, hr⟩ := Handler.within_eq_some.mp hr
  obtain ⟨_, -, heq⟩ := Option.map_eq_some_iff.mp hr
  cases heq
  have hread : (v.on ConnectStage.advance (.saw page)).stage = .read own peer wc page := by
    rw [PeerView.on, hstage]
    rfl
  by_cases hlen : (ntohl wc.immData).toNat ≤ cpuBufferBaseSize
  · simp only [hlen, dif_pos]
    refine Fallible.always_ofExcept (fun cs _ => .inl ⟨_, rfl⟩) fun e he => .inr (.inr ?_)
    rw [hread]
    intro _ cs hcs
    rw [hcs] at he
    cases he
  · simp only [hlen, dif_neg, not_false_eq_true]
    refine ⟨?_, fun _ r => r.elim⟩
    rw [ConnectProper, hread]
    exact fun h => absurd h hlen

/-- **`connect`**, if no call fails and it follows its rule. -/
theorem always_connect_guarded (gpuOrdinal : Int) (bufs : List GPUMemBuffer)
    (hgo : ∀ op v c, g op v c = true → v.goes sendsClean op c = true)
    (hrule : ∀ op v c, g op v c = true → ConnectRule op v) (v : ConnectView) :
    (Handler.within ConnectView.handler g).Always ConnectProper ConnectEnds
      (connect gpuOrdinal bufs).run v := by
  have h : Obliging sendsClean g ConnectProper := by
    refine ⟨hgo, ?_⟩
    intro op _ hop
    cases op <;> first | exact hop | exact hop.elim
  refine (completes_ibvModifyQp h).always_andThen (fun _ v₁ _ => ?_) v
  refine always_setUp_completes h (fun cpuBuffer cpuMr regs v₂ _ => ?_) v₁
  rw [Fallible.bind_eq, Fallible.run_andThen]
  refine (always_establishConn_completes h hrule v₂).bind ?_
  rintro _ v₃ (⟨own, peer, rfl, hknows⟩ | ⟨e, own, rfl, hflushed⟩)
  · refine always_ibvPostRecv h ?_
    have hexpecting : (v₃.on ConnectStage.advance (.receiving cpuBuffer.ptr)).stage =
        .expecting own peer := by
      rw [PeerView.on, hknows]
      rfl
    refine always_pollRecv h (fun c wc _ hwc => ?_) fun c wc e _ hwc => ?_
    · have hnotified : ((v₃.on ConnectStage.advance (.receiving cpuBuffer.ptr)).on
          ConnectStage.advance (.polled .recv wc)).stage = .notified own peer wc := by
        rw [PeerView.on, hexpecting]
        simp [ConnectStage.advance, hwc]
      split
      next hop =>
        refine .inr (.inr ?_)
        rw [hnotified]
        exact hop
      · exact always_decodeList hnotified
    · refine .inr (.inl ⟨own, ?_⟩)
      rw [PeerView.on, hexpecting]
      simp [ConnectStage.advance, hwc]
  · exact .inr (.inl ⟨own, hflushed⟩)

open Classical in
/-- **The client**, if no call fails: it returns `Ok`, unless a receive has been flushed or what it
has been told is not a list. -/
theorem always_connect_completes (gpuOrdinal : Int) (bufs : List GPUMemBuffer) :
    (Handler.within ConnectView.handler (PeerView.goes sendsClean)).Always
      (fun op v => ConnectProper op v ∧ ConnectRule op v) ConnectEnds
      (connect gpuOrdinal bufs).run (.init .start) := by
  have hrule : (connect gpuOrdinal bufs).Ensures ConnectView.handler ConnectRule Connected
      (.init .start) := ensures_connect rfl
  refine (Handler.Always.rely hrule (always_connect_guarded gpuOrdinal bufs
    (fun _ _ _ h => ((Bool.and_eq_true _ _).mp h).1)
    (fun _ _ _ h => of_decide_eq_true ((Bool.and_eq_true _ _).mp h).2) _)).mono ?_
  exact fun _ _ h => h.1

end Client

end RdmaTransport
