import RdmaTransport.Handshake.BufferOrder
import RdmaTransport.Handshake.Effects

/-!
# What the two sides have registered

The results of `accept` and `connect` speak about regions: each has a page, its region, and a map of
the regions of its GPU buffers, and the client has a map of what the server offered. Here they are
related to what has been registered with the card: the regions of a side are that of its page and
one for each of its buffers, whole and in their order, and no other. Its local map is filled from
these regions, and what the client knows of the server is filled from the server's.

## Main definitions

* `Registered` — the regions of one side

## Main results

* `Server.ensures_registered`, `Client.ensures_registered` — the regions of `accept` and `connect`
* `Handshake.registered_of_reach` — both, and the client's remote map, when both have returned `Ok`
-/

namespace RdmaTransport

open Interaction

/-! ### Frames -/

section Frames

variable {St α : Type} {advance : St → Event → St} {v v' : PeerView St} {op : Op} {r : op.Ans}
  {c : PeerView.Choice}

/-- The operation registers nothing. -/
def NoRegMr : Op → Prop
  | .ibvRegMr _ _ _ => False
  | _ => True

/-- Nothing has been registered, and the stage has followed at most one event. Bytes are written
only by an operation that writes them. -/
structure PeerView.Frame (advance : St → Event → St) (op : Op) (v v' : PeerView St) : Prop where
  /-- The regions are the same. -/
  regs : v'.regs = v.regs
  /-- The stage follows. -/
  stage : v'.stage = v.stage ∨ ∃ e, v'.stage = advance v.stage e ∧
    ∀ bytes, e = .wrote bytes → ∃ buf, op = .writePage buf bytes

/-- **One operation** that registers nothing. -/
theorem frame_of_handler (hop : NoRegMr op)
    (h : PeerView.handler advance op v c = some (r, v')) : v.Frame advance op v' := by
  obtain ⟨hstage, -, hregs, -⟩ := moves_of_handler h
  refine ⟨?_, ?_⟩
  · rcases hregs with hregs | ⟨addr, length, access, rfl⟩
    · exact hregs
    · exact hop.elim
  · rcases hstage with hstage | ⟨e, hemits, hstage⟩
    · exact .inl hstage
    · refine .inr ⟨e, hstage, ?_⟩
      rintro bytes rfl
      exact eq_of_emits_wrote hemits

end Frames

/-! ### The regions of one side -/

/-- The regions `mrs` of a side are that of its page and those of its buffers. -/
structure Registered (bufs : List GPUMemBuffer) (cpuMr : IbvMr) (cpuBuffer : MemBuffer)
    (regs : GpuRegs) (mrs : List IbvMr) : Prop where
  /-- There is one for each buffer, in their order. -/
  buffers : regs.map Prod.snd = bufs
  /-- It covers the buffer. -/
  whole : ∀ q ∈ regs, RegisteredFor q
  /-- The page's is the first, and there are no others. -/
  all : mrs = (regs.map Prod.fst).reverse ++ [cpuMr]
  /-- It covers the page. -/
  page : cpuMr.addr = cpuBuffer.ptr ∧ cpuMr.length = cpuBufferBaseSize

section Registering

variable {St α : Type} {advance : St → Event → St} {v : PeerView St}

/-- A region covers what it is registered for. -/
theorem ensures_ibvRegMr_whole (addr : UInt64) (length : ℕ) (access : UInt32) :
    (ibvRegMr addr length access).Ensures (PeerView.handler advance) (fun _ _ => True)
      (fun mr v' => v' = v.register mr ∧ mr.addr = addr ∧ mr.length = length) v := by
  refine (Fallible.Ensures.returns (ensures_ibvRegMr (P := fun mr v' => v' = v.register mr)
    trivial fun mr _ => rfl)).mono ?_
  rintro mr v' ⟨hregs, hmr⟩
  exact ⟨hregs, returns_ibvRegMr hmr⟩

/-- **The registration loop** registers each buffer whole, and nothing else. -/
theorem ensures_registered_loop (body : α → IbvMr → GPUMemBuffer → α) (bufs : List GPUMemBuffer)
    (acc : α) :
    (registerLoop body bufs acc).Ensures (PeerView.handler advance) (fun _ _ => True)
      (fun r v' => ∃ regs : GpuRegs, regs.map Prod.snd = bufs ∧ (∀ q ∈ regs, RegisteredFor q) ∧
        v'.stage = v.stage ∧ v'.regs = (regs.map Prod.fst).reverse ++ v.regs ∧
          r = regs.foldl (fun acc q => body acc q.1 q.2) acc) v := by
  induction bufs generalizing acc v with
  | nil => exact Fallible.ensures_pure ⟨[], rfl, nofun, rfl, rfl, rfl⟩
  | cons buffer rest ih =>
    refine .andThen (ensures_ibvRegMr_whole buffer.basePtr buffer.size mrAccess) ?_
    rintro mr _ ⟨rfl, hmr⟩
    refine (ih (body acc mr buffer)).mono ?_
    rintro _ v₂ ⟨regs, rfl, hwhole, hstage, hregs, rfl⟩
    refine ⟨(mr, buffer) :: regs, rfl, List.forall_mem_cons.mpr ⟨hmr, hwhole⟩, hstage, ?_, rfl⟩
    rw [hregs]
    simp [PeerView.register]

/-- **Setting up** registers the page and the buffers, and nothing else. -/
theorem ensures_registered_setUp {β : Type} {ordinal : Int} {body : α → IbvMr → GPUMemBuffer → α}
    {bufs : List GPUMemBuffer} {acc : α} {f : MemBuffer → IbvMr → α → Fallible β}
    {P : β → PeerView St → Prop} (hv : v.regs = [])
    (hf : ∀ cpuBuffer cpuMr regs v', v'.stage = v.stage →
      Registered bufs cpuMr cpuBuffer regs v'.regs →
      (f cpuBuffer cpuMr (regs.foldl (fun acc q => body acc q.1 q.2) acc)).Ensures
        (PeerView.handler advance) (fun _ _ => True) P v') :
    ((Fallible.lift (Task.perform .newPage)).andThen fun cpuBuffer =>
      (ibvRegMr cpuBuffer.ptr cpuBuffer.getSize mrAccess).andThen fun cpuMr =>
      (cudaDevicePrimaryCtxRetain ordinal).andThen fun _ =>
      cudaSetCurrentCtx.andThen fun _ =>
      (registerLoop body bufs acc).andThen (f cpuBuffer cpuMr)).Ensures
        (PeerView.handler advance) (fun _ _ => True) P v := by
  refine .andThen (P := fun _ v₁ => v₁.stage = v.stage ∧ v₁.regs = [])
    (ensures_newPage trivial fun _ => ⟨rfl, hv⟩) ?_
  rintro cpuBuffer v₁ ⟨hstage₁, hregs₁⟩
  refine .andThen (ensures_ibvRegMr_whole cpuBuffer.ptr cpuBuffer.getSize mrAccess) ?_
  rintro cpuMr _ ⟨rfl, hpage⟩
  refine .andThen (P := fun _ v₂ => v₂ = v₁.register cpuMr)
    (ensures_cudaDevicePrimaryCtxRetain trivial trivial rfl) ?_
  rintro _ _ rfl
  refine .andThen (P := fun _ v₃ => v₃ = v₁.register cpuMr)
    (ensures_cudaSetCurrentCtx trivial rfl) ?_
  rintro _ _ rfl
  refine .andThen (ensures_registered_loop body bufs acc) ?_
  rintro _ v₄ ⟨regs, hbufs, hwhole, hstage₄, hregs₄, rfl⟩
  refine hf cpuBuffer cpuMr regs v₄ (hstage₄.trans hstage₁) ⟨hbufs, hwhole, ?_, hpage⟩
  rw [hregs₄, PeerView.register, hregs₁]

end Registering

/-! ### The server -/

namespace Server

/-- Nothing is registered, and nothing but these bytes is written to the page. -/
def Offering (bytes : List UInt8) : Op → Prop
  | .ibvRegMr _ _ _ => False
  | .writePage _ bs => bs = bytes
  | _ => True

/-- What `accept` does once everything is registered. -/
def acceptOffering (cpuMr : IbvMr) (cpuBuffer : MemBuffer) (conns : Connections)
    (localGpuBufferMap : LocalGpuBuffers) : Fallible AcceptResult := do
  let clientConn ← establishConn cpuMr cpuBuffer
  let written ← (serializeInto cpuBuffer conns.serialize : Task _)
  Fallible.ofExcept (mapErr "accept" written)
  rdmaPostWriteWithOpcode cpuBuffer.ptr cpuBufferBaseSize (some cpuMr) ibvSendSignaled
    clientConn.basePtr clientConn.mrRkey .rdmaWriteWithImm (UInt32.ofNat conns.serializedSize)
  let _ ← pollComp .send "accept" "poll_write_comp"
  pure (clientConn, (cpuMr, cpuBuffer), localGpuBufferMap)

variable {cpuMr : IbvMr} {cpuBuffer : MemBuffer} {conns : Connections} {kept : LocalGpuBuffers}

theorem offering_of_exchanging (bytes : List UInt8) (op : Op) (h : Exchanging op) :
    Offering bytes op := by
  cases op <;> first | exact h.elim | trivial

theorem only_acceptOffering :
    (acceptOffering cpuMr cpuBuffer conns kept).run.Only (Offering conns.serialize) := by
  refine Fallible.only_andThen ((only_establishConn _ _).mono (offering_of_exchanging _))
    fun _ _ => ?_
  refine Fallible.only_andThen ((only_serializeInto (P := Offering conns.serialize) rfl).bind
    fun _ _ => trivial) fun _ _ => ?_
  refine Fallible.only_andThen (Fallible.only_ofExcept _) fun _ _ => ?_
  refine Fallible.only_andThen (Fallible.only_call trivial) fun _ _ => ?_
  refine Fallible.only_andThen (only_pollComp trivial) fun _ _ => ?_
  trivial

theorem returns_acceptOffering {out : AcceptResult}
    (h : (acceptOffering cpuMr cpuBuffer conns kept).run.Returns (.ok out)) :
    out.2 = ((cpuMr, cpuBuffer), kept) := by
  obtain ⟨conn, _, h⟩ := Fallible.returns_andThen.mp h
  obtain ⟨written, _, h⟩ := Fallible.returns_andThen.mp h
  obtain ⟨_, _, h⟩ := Fallible.returns_andThen.mp h
  obtain ⟨_, _, h⟩ := Fallible.returns_andThen.mp h
  obtain ⟨_, _, h⟩ := Fallible.returns_andThen.mp h
  cases h
  rfl

/-- The regions are these, and what is in the page is their list. -/
structure HoldsOffer (regs : GpuRegs) (mrs : List IbvMr) (v : AcceptView) : Prop where
  /-- The regions. -/
  all : v.regs = mrs
  /-- The page. -/
  page : ∀ bytes, v.stage.bytes? = some bytes → bytes = regs.offer.serialize

theorem holdsOffer_step {regs : GpuRegs} {mrs : List IbvMr} {v v' : AcceptView} {op : Op}
    {r : op.Ans} {choice : PeerView.Choice} (hop : Offering regs.offer.serialize op)
    (hv : HoldsOffer regs mrs v)
    (hr : AcceptView.handler op v choice = some (r, v')) : HoldsOffer regs mrs v' := by
  obtain ⟨hregs, hstage⟩ := frame_of_handler (by cases op <;> first | exact hop.elim | trivial) hr
  refine ⟨hregs.trans hv.all, ?_⟩
  intro bytes hbytes
  rcases hstage with hstage | ⟨e, hstage, hwrote⟩
  · exact hv.page bytes (hstage ▸ hbytes)
  · rw [hstage] at hbytes
    rcases AcceptStage.bytes?_advance hbytes with hbytes | he
    · exact hv.page bytes hbytes
    · obtain ⟨buf, rfl⟩ := hwrote bytes he
      exact hop

/-- What `accept` has registered when it returns `out`, and what it has offered. -/
def Holdings (bufs : List GPUMemBuffer) (out : AcceptResult) (v : AcceptView) : Prop :=
  ∃ regs, Registered bufs out.2.1.1 out.2.1.2 regs v.regs ∧ out.2.2 = regs.kept ∧
    HoldsOffer regs v.regs v

/-- **`accept`** registers its page and its buffers, and offers what it keeps. -/
theorem ensures_registered (gpuOrdinal : Int) (bufs : List GPUMemBuffer) :
    (accept gpuOrdinal bufs).Ensures AcceptView.handler (fun _ _ => True) (Holdings bufs)
      (.init .start) := by
  refine .andThen (P := fun _ v₁ => v₁.stage = .start ∧ v₁.regs = [])
    (ensures_ibvQueryQp trivial ⟨rfl, rfl⟩) ?_
  intro _ v₁ h₁
  refine .andThen (P := fun _ v₂ => v₂.stage = .start ∧ v₂.regs = [])
    (ensures_ibvModifyQp trivial h₁) ?_
  rintro _ v₂ ⟨hstage₂, hregs₂⟩
  refine ensures_registered_setUp hregs₂ ?_
  intro cpuBuffer cpuMr regs v₃ hstage₃ hregistered
  rw [foldl_offer]
  have hoffers : HoldsOffer regs v₃.regs v₃ := ⟨rfl, by rw [hstage₃, hstage₂]; nofun⟩
  have hkeeps : (acceptOffering cpuMr cpuBuffer regs.offer regs.kept).Ensures AcceptView.handler
      (fun _ _ => True) (fun _ v => HoldsOffer regs v₃.regs v) v₃ :=
    (Handler.Always.of_only only_acceptOffering hoffers (fun _ _ _ _ => trivial)
      fun _ _ _ _ _ hop hv hr => holdsOffer_step hop hv hr).mono fun _ _ hv _ _ => hv
  refine hkeeps.returns.mono ?_
  rintro ⟨conn, _, _⟩ v ⟨hv, hout⟩
  cases returns_acceptOffering hout
  have hregs := hv.all
  exact ⟨regs, hregs ▸ hregistered, rfl, hregs ▸ hv⟩

/-- So does the task around it. -/
theorem always_registered (gpuOrdinal : Int) (bufs : List GPUMemBuffer) :
    (acceptTask gpuOrdinal bufs).Ensures AcceptView.handler (fun _ _ => True) (Holdings bufs)
      (.init .start) := by
  refine Handler.Always.bind (ensures_registered gpuOrdinal bufs) ?_
  intro r v hr
  cases r with
  | ok out => exact hr
  | error e =>
    refine ⟨trivial, fun _ _ v₁ _ => ⟨trivial, fun _ r v₂ _ => ?_⟩⟩
    dsimp only
    cases rdmaCall "rdma_disconnect" r with
    | ok _ => exact nofun
    | error e => exact ⟨trivial, fun _ r => r.elim⟩

end Server

/-! ### The client -/

namespace Client

/-- What `connect` does once everything is registered. -/
def connectRegistered (cpuMr : IbvMr) (cpuBuffer : MemBuffer)
    (localGpuBufferMap : LocalGpuBuffers) : Fallible ConnectResult := do
  let serverConn ← establishConn cpuMr cpuBuffer
  rdmaPostRecv cpuBuffer.ptr cpuBuffer.getSize cpuMr
  let wc ← pollComp .recv "connect" "poll_recv_comp"
  if wc.opcode ≠ ibvWcRecvRdmaWithImm then
    .fail (.opsFailed "connect" "expect IBV_WR_RDMA_WRITE_WITH_IMM opcode")
  else
    let size := (ntohl wc.immData).toNat
    let data ← slicePage cpuBuffer size
    let serverGpuConns ←
      Fallible.ofExcept (mapErr "connect" ((Connections.deserialize data).mapError decodeErrorMsg))
    pure (serverConn, (cpuMr, cpuBuffer), localGpuBufferMap, remoteMap serverGpuConns.conns)

variable {cpuMr : IbvMr} {cpuBuffer : MemBuffer} {kept : LocalGpuBuffers}

theorem only_establishConn_noRegMr :
    (establishConn cpuMr cpuBuffer).run.Only NoRegMr := by
  refine Fallible.only_andThen (Fallible.only_call trivial) fun _ _ => ?_
  refine Fallible.only_andThen (Fallible.only_call trivial) fun _ _ => ?_
  refine Fallible.only_andThen (Fallible.only_call trivial) fun _ _ => ?_
  refine Fallible.only_andThen (Fallible.only_call trivial) fun _ _ => ?_
  refine Fallible.only_andThen (Fallible.only_call trivial) fun _ _ => ?_
  refine Fallible.only_andThen (only_pollComp trivial) fun _ _ => ?_
  refine Fallible.only_andThen (only_pollComp trivial) fun _ _ => ?_
  exact ⟨trivial, fun _ => trivial⟩

theorem only_connectRegistered :
    (connectRegistered cpuMr cpuBuffer kept).run.Only NoRegMr := by
  refine Fallible.only_andThen only_establishConn_noRegMr fun _ _ => ?_
  refine Fallible.only_andThen (Fallible.only_call trivial) fun _ _ => ?_
  refine Fallible.only_andThen (only_pollComp trivial) fun wc _ => ?_
  split
  · trivial
  refine Fallible.only_andThen ((only_slicePage (P := NoRegMr) trivial trivial).bind
    fun _ _ => trivial) fun _ _ => ?_
  exact Fallible.only_andThen (Fallible.only_ofExcept _) fun _ _ => trivial

theorem returns_connectRegistered {out : ConnectResult}
    (h : (connectRegistered cpuMr cpuBuffer kept).run.Returns (.ok out)) :
    out.2.1 = (cpuMr, cpuBuffer) ∧ out.2.2.1 = kept := by
  obtain ⟨conn, _, h⟩ := Fallible.returns_andThen.mp h
  obtain ⟨_, _, h⟩ := Fallible.returns_andThen.mp h
  obtain ⟨wc, _, h⟩ := Fallible.returns_andThen.mp h
  split at h
  · cases h
  · obtain ⟨data, _, h⟩ := Fallible.returns_andThen.mp h
    obtain ⟨conns, _, h⟩ := Fallible.returns_andThen.mp h
    cases h
    exact ⟨rfl, rfl⟩

/-- What `connect` has registered when it returns `out`. -/
def Holdings (bufs : List GPUMemBuffer) (out : ConnectResult) (v : ConnectView) : Prop :=
  ∃ regs : GpuRegs, Registered bufs out.2.1.1 out.2.1.2 regs v.regs ∧ out.2.2.1 = regs.kept

/-- **`connect`** registers its page and its buffers. -/
theorem ensures_registered (gpuOrdinal : Int) (bufs : List GPUMemBuffer) :
    (connect gpuOrdinal bufs).Ensures ConnectView.handler (fun _ _ => True) (Holdings bufs)
      (.init .start) := by
  refine .andThen (P := fun _ v₁ => v₁.regs = []) (ensures_ibvModifyQp trivial rfl) ?_
  intro _ v₁ hregs₁
  refine ensures_registered_setUp hregs₁ ?_
  intro cpuBuffer cpuMr regs v₂ _ hregistered
  have hkeeps : (connectRegistered cpuMr cpuBuffer regs.kept).Ensures ConnectView.handler
      (fun _ _ => True) (fun _ v => v.regs = v₂.regs) v₂ :=
    (Handler.Always.of_only (J := fun v => v.regs = v₂.regs) only_connectRegistered rfl
      (fun _ _ _ _ => trivial) fun _ _ _ _ _ hop hv hr =>
        (frame_of_handler hop hr).regs.trans hv).mono fun _ _ hv _ _ => hv
  refine hkeeps.returns.mono ?_
  rintro ⟨conn, ⟨mr, buf⟩, localMap, remote⟩ v ⟨hv, hout⟩
  obtain ⟨hpage, hkept⟩ := returns_connectRegistered hout
  cases hpage
  exact ⟨regs, hv ▸ hregistered, hkept⟩

end Client

/-! ### Both sides -/

namespace Handshake

variable {s s' : Handshake} {bufs clientBufs : List GPUMemBuffer}

/-- What is true of either task alone, in whatever environment, is true of it in the handshake. -/
theorem always_of_reach {I : Op → AcceptView → Prop} {I' : Op → ConnectView → Prop}
    {Q : Except TransportErrors AcceptResult → AcceptView → Prop}
    {Q' : Except TransportErrors ConnectResult → ConnectView → Prop}
    {G : Handshake → Label → Bool}
    (hserver : AcceptView.handler.Always I Q s.server.prog s.server.world)
    (hclient : ConnectView.handler.Always I' Q' s.client.prog s.client.world)
    (hr : Reach step G s s') :
    AcceptView.handler.Always I Q s'.server.prog s'.server.world ∧
      ConnectView.handler.Always I' Q' s'.client.prog s'.client.world := by
  refine hr.invariant (P := fun s => AcceptView.handler.Always I Q s.server.prog s.server.world ∧
    ConnectView.handler.Always I' Q' s.client.prog s.client.world) ⟨hserver, hclient⟩ ?_
  rintro s l s' ⟨hserver, hclient⟩ - hs
  cases l with
  | server choice =>
    obtain ⟨out, hact, rfl⟩ := Option.map_eq_some_iff.mp hs
    obtain ⟨op, k, r, v, e, cm, hprog, hv, -, -, rfl⟩ := act_eq_some hact
    rw [hprog] at hserver
    exact ⟨hserver.2 choice r v hv, hclient⟩
  | client choice =>
    obtain ⟨out, hact, rfl⟩ := Option.map_eq_some_iff.mp hs
    obtain ⟨op, k, r, v, e, cm, hprog, hv, -, -, rfl⟩ := act_eq_some hact
    rw [hprog] at hclient
    exact ⟨hserver, hclient.2 choice r v hv⟩
  | read =>
    obtain ⟨c, hread, rfl⟩ := Option.map_eq_some_iff.mp hs
    exact ⟨hserver, hclient.step hread⟩
  | flush status =>
    obtain ⟨-, hs⟩ := Option.ite_none_right_eq_some.mp hs
    obtain ⟨e, -, rfl⟩ := Option.map_eq_some_iff.mp hs
    exact ⟨hserver, hclient⟩
  | _ =>
    obtain ⟨out, -, rfl⟩ := Option.map_eq_some_iff.mp hs
    exact ⟨hserver, hclient⟩

/-- The regions of the two sides, and what the client knows of the server's. -/
structure BothRegistered (bufs clientBufs : List GPUMemBuffer) (out : AcceptResult)
    (out' : ConnectResult) (regs clientRegs : GpuRegs) (s : Handshake) : Prop where
  /-- The server's regions. -/
  server : Registered bufs out.2.1.1 out.2.1.2 regs s.server.world.regs
  /-- The client's. -/
  client : Registered clientBufs out'.2.1.1 out'.2.1.2 clientRegs s.client.world.regs
  /-- The client has the server's page. -/
  page : out'.1 = ⟨out.2.1.2.ptr, out.2.1.1.rkey⟩
  /-- The client's map is filled from its regions. -/
  kept : out'.2.2.1 = clientRegs.kept
  /-- Its remote map is filled from the server's. -/
  remote : out'.2.2.2 = Client.remoteMap regs.offer.conns

/-- What has been told is what has been offered. -/
theorem Told.slice_eq {st : AcceptStage} {wc : IbvWc} {page : Page} {bytes : List UInt8}
    (h : Told st wc page) (hoffer : st.offer? = some bytes)
    (hfits : bytes.length ≤ cpuBufferBaseSize) :
    ∃ hle, page.slice (ntohl wc.immData).toNat hle = bytes := by
  obtain ⟨bytes', hoffer', himm, hlen, hslice⟩ := h
  rw [hoffer] at hoffer'
  cases hoffer'
  have hsize : (ntohl wc.immData).toNat = bytes.length := by
    rw [himm, ntohl_htonl, UInt32.toNat_ofNat_of_lt' (lt_of_le_of_lt hfits (by decide))]
  exact ⟨hsize.trans_le hfits, by simp only [hsize, hslice]⟩

theorem remote_of_holdsOffer {regs : GpuRegs} {mrs : List IbvMr} (h : Consistent bufs s)
    (hoffer : Server.HoldsOffer regs mrs s.server.world) {out : ConnectResult}
    (hout : s.client.prog = .ret (.ok out)) : out.2.2.2 = Client.remoteMap regs.offer.conns := by
  obtain ⟨wc, page, cs, hle, hread, hcs, hmap⟩ := h.connected hout
  have hin := h.clientSide.recvs
  rw [hread] at hin
  obtain ⟨-, -, htold⟩ := hin
  obtain ⟨bytes, hbytes, -⟩ := id htold
  obtain ⟨hfits, -⟩ := (h.serverSide.offer hbytes).1
  obtain rfl := hoffer.page bytes (AcceptStage.bytes?_of_offer hbytes)
  obtain ⟨_, hslice⟩ := htold.slice_eq hbytes hfits
  rw [hslice, Connections.deserialize_serialize hfits] at hcs
  cases hcs
  exact hmap

/-- **When both have returned `Ok`**, the client knows exactly what the server has registered. -/
theorem registered_of_reach {ordinal clientOrdinal : Int}
    {serverSlots clientSlots : UInt64 → Connection} {serverPage clientPage : Page}
    {out : AcceptResult} {out' : ConnectResult}
    (hr : Reach step anyStep (.init ordinal bufs clientOrdinal clientBufs
      (.init serverSlots serverPage) (.init clientSlots clientPage)) s)
    (hout : s.server.prog = .ret (.ok out)) (hout' : s.client.prog = .ret (.ok out')) :
    ∃ regs clientRegs, BothRegistered bufs clientBufs out out' regs clientRegs s := by
  have hs : Consistent bufs s := hr.invariant
    (consistent_init ordinal clientOrdinal clientBufs serverSlots clientSlots serverPage clientPage)
    fun _ _ _ hs _ hstep => consistent_step hs hstep
  have hboth := always_of_reach (s := .init ordinal bufs clientOrdinal clientBufs
    (.init serverSlots serverPage) (.init clientSlots clientPage))
    (Server.always_registered ordinal bufs) (Client.ensures_registered clientOrdinal clientBufs) hr
  rw [hout, hout'] at hboth
  obtain ⟨regs, hregs, -, hoffer⟩ := hboth.1 out rfl
  obtain ⟨clientRegs, hclientRegs, hkept⟩ := hboth.2 out' rfl
  exact ⟨regs, clientRegs, hregs, hclientRegs, (hs.agree hout hout').serverPage, hkept,
    remote_of_holdsOffer hs hoffer hout'⟩

end Handshake

end RdmaTransport
