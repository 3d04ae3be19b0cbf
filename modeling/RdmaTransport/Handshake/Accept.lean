import RdmaTransport.Internal.InsertAll
import RdmaTransport.Handshake.Peer
import RdmaTransport.Vllm.Server

/-!
# The server's half of the handshake

`accept` receives the client's page, sends its own, and writes the list of its buffers into the
client's page. The stages follow these three messages, from the receive that is posted before the
connection is accepted to the completion of the write.

## Main definitions

* `AcceptStage` — how far `accept` is
* `AcceptRule` — what each operation finds
* `acceptTask` — `accept`, and the disconnect that follows if it fails

## Main results

* `ensures_accept`, `always_acceptTask` — `accept` follows the rule, and what it returns
* `Server.handlerTask_eq` — the spawned task starts with `acceptTask`
-/

namespace RdmaTransport

open Interaction

/-! ### Stages -/

/-- How far `accept` is. -/
inductive AcceptStage
  /-- The connection is not used yet. -/
  | start
  /-- `client_conn` is at this address. -/
  | slot (a : UInt64)
  /-- A receive is posted there. -/
  | listening (a : UInt64)
  /-- The connection is accepted. -/
  | accepted (a : UInt64)
  /-- The receive has completed. -/
  | heard (a : UInt64)
  /-- `server_conn` is placed and holds this. -/
  | ready (a b : UInt64) (own : Connection)
  /-- It is sent. -/
  | sent (a : UInt64) (own : Connection)
  /-- The send has completed. -/
  | told (a : UInt64) (own : Connection)
  /-- `client_conn` has been read. -/
  | knows (own peer : Connection)
  /-- The list is in the page. -/
  | written (own peer : Connection) (bytes : List UInt8)
  /-- The write is posted. -/
  | offered (own peer : Connection) (bytes : List UInt8)
  /-- The write has completed. -/
  | done (own peer : Connection) (bytes : List UInt8)

namespace AcceptStage

/-- What an event makes of a stage. -/
def advance : AcceptStage → Event → AcceptStage
  | start, .placed a _ => slot a
  | slot a, .receiving _ => listening a
  | listening a, .linked => accepted a
  | accepted a, .polled _ _ => heard a
  | heard a, .placed b own => ready a b own
  | ready a _ own, .posted _ => sent a own
  | sent a own, .polled _ _ => told a own
  | told _ own, .fetched _ peer => knows own peer
  | knows own peer, .wrote bytes => written own peer bytes
  | written own peer bytes, .posted _ => offered own peer bytes
  | offered own peer bytes, .polled _ _ => done own peer bytes
  | stage, _ => stage

end AcceptStage

/-- The view of `accept`. -/
abbrev AcceptView := PeerView AcceptStage

/-- The environment of `accept`. -/
abbrev AcceptView.handler := PeerView.handler AcceptStage.advance

/-- The bytes are a list of the buffers that fits the page. -/
def Offers (bufs : List GPUMemBuffer) (bytes : List UInt8) : Prop :=
  bytes.length ≤ cpuBufferBaseSize ∧
    ∃ cs : Connections, bytes = cs.serialize ∧ cs.conns.length = bufs.length

/-- The work request that writes the list into the page of `peer`. -/
def IsOffer (wr : IbvSendWr) (peer : Connection) (bytes : List UInt8) : Prop :=
  wr.opcode = .rdmaWriteWithImm ∧ wr.remoteAddr = peer.basePtr ∧ wr.rkey = peer.mrRkey ∧
    wr.immData = htonl (UInt32.ofNat bytes.length)

/-- The messages are exchanged in order, and what is sent is one's own page and the list. -/
def AcceptRule (bufs : List GPUMemBuffer) (op : Op) (v : AcceptView) : Prop :=
  match op with
  | .newPage => v.stage = .start
  | .letConn conn => v.stage = .start ∨
      ∃ a mr buf, v.stage = .heard a ∧ a ∈ v.vars ∧ v.Owns conn mr buf
  | .ibvPostRecv wr => v.stage = .slot wr.sge.addr
  | .rdmaAccept => ∃ a, v.stage = .listening a
  | .ibvPollCq .recv => ∃ a, v.stage = .accepted a
  | .ibvPollCq .send => (∃ a own, v.stage = .sent a own) ∨
      ∃ own peer bytes, v.stage = .offered own peer bytes
  | .ibvPostSend wr => (∃ a own, v.stage = .ready a wr.sge.addr own ∧ wr.opcode = .send) ∨
      ∃ own peer bytes, v.stage = .written own peer bytes ∧ IsOffer wr peer bytes ∧
        Offers bufs bytes
  | .readConn addr => ∃ own, v.stage = .told addr own
  | .writePage _ _ => ∃ own peer, v.stage = .knows own peer
  | .rdmaConnect => False
  | .readPage _ => False
  | _ => True

/-! ### What `accept` returns -/

/-- The regions of the GPU buffers, in the order of the buffers. -/
abbrev GpuRegs := List (IbvMr × GPUMemBuffer)

/-- What the server tells the client about a region. -/
def GpuRegs.offer (regs : GpuRegs) : Connections :=
  ⟨regs.map fun q => ⟨q.2.basePtr, q.1.rkey⟩⟩

/-- What the server keeps of its regions. -/
def GpuRegs.kept (regs : GpuRegs) : LocalGpuBuffers := insertAll (fun q => q.2.basePtr) id regs ∅

/-- `accept` has offered the regions it keeps, and returns what it has sent and received. -/
def Accepted (bufs : List GPUMemBuffer)
    (out : Connection × (IbvMr × MemBuffer) × LocalGpuBuffers) (v : AcceptView) : Prop :=
  ∃ regs : GpuRegs, regs.map Prod.snd = bufs ∧ out.2.2 = regs.kept ∧
    v.stage = .done ⟨out.2.1.2.ptr, out.2.1.1.rkey⟩ out.1 regs.offer.serialize

theorem foldl_offer (regs : GpuRegs) :
    regs.foldl (fun acc q => Server.offer acc q.1 q.2) (⟨[]⟩, ∅) = (regs.offer, regs.kept) := by
  suffices ∀ (cs : List Connection) (m : LocalGpuBuffers),
      regs.foldl (fun acc q => Server.offer acc q.1 q.2) (⟨cs⟩, m) =
        (⟨cs ++ regs.offer.conns⟩, insertAll (fun q => q.2.basePtr) id regs m) from this [] ∅
  induction regs with
  | nil => intro cs m; simp [GpuRegs.offer, insertAll]
  | cons q regs ih =>
    intro cs m
    rw [List.foldl_cons]
    refine (ih (cs ++ [⟨q.2.basePtr, q.1.rkey⟩]) (m.insert q.2.basePtr q)).trans ?_
    simp [GpuRegs.offer, insertAll]

section Rules

variable {bufs : List GPUMemBuffer} {v : AcceptView}

/-- **The exchange of pages.** -/
theorem Server.ensures_establishConn {cpuMr : IbvMr} {cpuBuffer : MemBuffer}
    (hstage : v.stage = .start) (howns : v.Owns ⟨cpuBuffer.ptr, cpuMr.rkey⟩ cpuMr cpuBuffer) :
    (Server.establishConn cpuMr cpuBuffer).Ensures AcceptView.handler (AcceptRule bufs)
      (fun peer v' => v'.stage = .knows ⟨cpuBuffer.ptr, cpuMr.rkey⟩ peer) v := by
  obtain ⟨-, hcpu, hmem, haddr⟩ := howns
  refine .andThen (P := fun a v₁ => v₁.stage = .slot a ∧ a ∈ v₁.vars ∧
      v₁.cpuBuffer = some cpuBuffer ∧ cpuMr ∈ v₁.regs)
    (ensures_letConn (.inl hstage) fun a _ =>
      ⟨by simp [PeerView.place, hstage, AcceptStage.advance], List.mem_cons_self, hcpu, hmem⟩) ?_
  rintro a v₁ ⟨hslot, ha, hcpu₁, hmem₁⟩
  refine .andThen (P := fun _ v₂ => v₂.stage = .listening a ∧ a ∈ v₂.vars ∧
      v₂.cpuBuffer = some cpuBuffer ∧ cpuMr ∈ v₂.regs)
    (ensures_ibvPostRecv hslot
      ⟨by simp [PeerView.on, hslot, AcceptStage.advance], ha, hcpu₁, hmem₁⟩) ?_
  rintro _ v₂ ⟨hlistening, ha₂, hcpu₂, hmem₂⟩
  refine .andThen (P := fun _ v₃ => v₃.stage = .accepted a ∧ a ∈ v₃.vars ∧
      v₃.cpuBuffer = some cpuBuffer ∧ cpuMr ∈ v₃.regs)
    (ensures_rdmaAccept ⟨a, hlistening⟩
      ⟨by simp [PeerView.on, hlistening, AcceptStage.advance], ha₂, hcpu₂, hmem₂⟩) ?_
  rintro _ v₃ ⟨haccepted, ha₃, hcpu₃, hmem₃⟩
  refine .andThen (P := fun _ v₄ => v₄.stage = .heard a ∧ a ∈ v₄.vars ∧
      v₄.cpuBuffer = some cpuBuffer ∧ cpuMr ∈ v₄.regs)
    (ensures_pollComp ⟨a, haccepted⟩ fun wc _ =>
      ⟨by simp [PeerView.on, haccepted, AcceptStage.advance], ha₃, hcpu₃, hmem₃⟩) ?_
  rintro _ v₄ ⟨hheard, ha₄, hcpu₄, hmem₄⟩
  refine .andThen (P := fun b v₅ => v₅.stage = .ready a b ⟨cpuBuffer.ptr, cpuMr.rkey⟩)
    (ensures_letConn (.inr ⟨a, cpuMr, cpuBuffer, hheard, ha₄, rfl, hcpu₄, hmem₄, haddr⟩) fun b _ =>
      by simp [PeerView.place, hheard, AcceptStage.advance]) ?_
  intro b v₅ hready
  refine .andThen (P := fun _ v₆ => v₆.stage = .sent a ⟨cpuBuffer.ptr, cpuMr.rkey⟩)
    (ensures_ibvPostSend (.inl ⟨a, _, hready, rfl⟩)
      (by simp [PeerView.on, hready, AcceptStage.advance])) ?_
  intro _ v₆ hsent
  refine .andThen (P := fun _ v₇ => v₇.stage = .told a ⟨cpuBuffer.ptr, cpuMr.rkey⟩)
    (ensures_pollComp (.inl ⟨a, _, hsent⟩) fun wc _ =>
      by simp [PeerView.on, hsent, AcceptStage.advance]) ?_
  intro _ v₇ htold
  refine .andThen (P := fun peer v₈ => v₈.stage = .knows ⟨cpuBuffer.ptr, cpuMr.rkey⟩ peer)
    (ensures_readConn ⟨_, htold⟩ fun peer =>
      by simp [PeerView.on, htold, AcceptStage.advance]) ?_
  intro peer v₈ hknows
  exact Fallible.ensures_pure hknows

/-- **`accept`** follows the rule, from the registrations to the completion of the write. -/
theorem ensures_accept {gpuOrdinal : Int} (hstage : v.stage = .start) :
    (Server.accept gpuOrdinal bufs).Ensures AcceptView.handler (AcceptRule bufs)
      (Accepted bufs) v := by
  refine .andThen (P := fun _ v₁ => v₁.stage = .start) (ensures_ibvQueryQp trivial hstage) ?_
  intro _ v₁ h₁
  refine .andThen (P := fun _ v₂ => v₂.stage = .start) (ensures_ibvModifyQp trivial h₁) ?_
  intro _ v₂ h₂
  refine ensures_setUp h₂ (fun _ _ _ _ => trivial) (fun _ => trivial) (fun _ => trivial)
    (fun _ => trivial) ?_
  intro cpuBuffer cpuMr (regs : GpuRegs) v₃ hstage₃ howns hregs
  rw [foldl_offer]
  refine .andThen (Server.ensures_establishConn (hstage₃.trans h₂) howns) ?_
  intro peer v₄ hknows
  have hwritten : (v₄.on AcceptStage.advance (.wrote regs.offer.serialize)).stage =
      .written ⟨cpuBuffer.ptr, cpuMr.rkey⟩ peer regs.offer.serialize := by
    simp [PeerView.on, hknows, AcceptStage.advance]
  refine .andThen (P := fun r v₅ => v₅.stage = .written ⟨cpuBuffer.ptr, cpuMr.rkey⟩ peer
      regs.offer.serialize ∧ (r = .ok () → Offers bufs regs.offer.serialize))
    (ensures_serializeInto ⟨_, _, hknows⟩
      (fun hfits => ⟨hwritten, fun _ => ⟨hfits, regs.offer, rfl, by simp [GpuRegs.offer, ← hregs]⟩⟩)
      fun _ => ⟨hwritten, nofun⟩) ?_
  rintro r v₅ ⟨h₅, hoffers⟩
  refine .andThen (P := fun _ v₆ => v₆ = v₅ ∧ r = .ok ())
    (Fallible.ensures_ofExcept fun _ hr => ⟨rfl, ?_⟩) fun _ v₆ ⟨hv₆, hr⟩ => ?_
  · cases r with
    | ok _ => rfl
    | error e => cases hr
  subst hv₆
  refine .andThen (P := fun _ v₇ => v₇.stage = .offered ⟨cpuBuffer.ptr, cpuMr.rkey⟩ peer
      regs.offer.serialize)
    (ensures_ibvPostSend (.inr ⟨_, _, _, h₅, ⟨rfl, rfl, rfl, rfl⟩, hoffers hr⟩)
      (by simp [PeerView.on, h₅, AcceptStage.advance])) ?_
  intro _ v₇ hoffered
  refine .andThen (P := fun _ v₈ => v₈.stage = .done ⟨cpuBuffer.ptr, cpuMr.rkey⟩ peer
      regs.offer.serialize)
    (ensures_pollComp (.inr ⟨_, _, _, hoffered⟩) fun wc _ =>
      by simp [PeerView.on, hoffered, AcceptStage.advance]) ?_
  intro _ v₈ hdone
  exact Fallible.ensures_pure ⟨regs, hregs, rfl, hdone⟩

end Rules

/-! ### The task around it -/

namespace Server

/-- `accept`, and the disconnect if it fails. -/
def acceptTask (gpuOrdinal : Int) (gpuBuffers : List GPUMemBuffer) :
    Fallible (Connection × (IbvMr × MemBuffer) × LocalGpuBuffers) :=
  (accept gpuOrdinal gpuBuffers).run.bind fun
    | .ok out => .ret (.ok out)
    | .error e =>
      Task.call (.observe (.error "exchange qp failed" e)) fun _ =>
      Task.call .rdmaDisconnect fun r =>
        (Task.unwrap (rdmaCall "rdma_disconnect" r)).bind fun _ => .ret (.error e)

/-- The spawned task starts with it. -/
theorem handlerTask_eq (gpuOrdinal : Int) (gpuBuffers : List GPUMemBuffer) (n : ℕ) :
    handlerTask gpuOrdinal gpuBuffers n = (acceptTask gpuOrdinal gpuBuffers).run.bind fun
      | .ok (_, (cpuMr, cpuBuffer), _) => handler cpuMr cpuBuffer n
      | .error _ => .ret (some ()) := by
  rw [Fallible.run, acceptTask, Prog.bind_assoc]
  refine congrArg (Prog.bind _) (funext fun r => ?_)
  cases r with
  | ok out => rfl
  | error e =>
    refine congrArg (Prog.vis (S := iface) _) (funext fun _ => ?_)
    refine congrArg (Prog.vis (S := iface) _) (funext fun r => ?_)
    simp only [Prog.ret_bind, Prog.bind_assoc]
    rfl

/-- **The task** returns `Ok` as `accept` does, and an error only after it has disconnected. -/
theorem always_acceptTask (gpuOrdinal : Int) (bufs : List GPUMemBuffer) :
    AcceptView.handler.Always (AcceptRule bufs)
      (fun r v => (∀ out, r = .ok out → Accepted bufs out v) ∧
        ∀ e, r = .error e → v.closed = true) (acceptTask gpuOrdinal bufs).run (.init .start) := by
  refine Handler.Always.bind (ensures_accept rfl) ?_
  intro r v hr
  cases r with
  | ok out => exact ⟨hr, nofun⟩
  | error e =>
    refine ⟨trivial, fun _ _ v₁ _ => ⟨trivial, ?_⟩⟩
    intro c r v₂ hdisconnect
    obtain ⟨_, -, heq⟩ := Option.map_eq_some_iff.mp hdisconnect
    cases heq
    cases hok : CRet.isOk r with
    | true =>
      simp only [rdmaCall_of_isOk hok, Task.unwrap]
      exact ⟨nofun, fun _ _ => Bool.or_true _⟩
    | false =>
      obtain ⟨err, herr⟩ := rdmaCall_of_not_isOk "rdma_disconnect" hok
      simp only [herr, Task.unwrap, Task.panic_bind]
      exact ⟨trivial, fun _ r => r.elim⟩

end Server

end RdmaTransport
