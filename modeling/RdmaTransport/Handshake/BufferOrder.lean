import RdmaTransport.Footprints
import RdmaTransport.Handshake.Agreement
import RdmaTransport.Registration

/-!
# In which order a client knows the server's buffers

The server writes the list of its buffers in the order of their registration, and the client decodes
it in that order. Then it puts the list into a `HashMap`, and what a `VllmRdmaClient` returns to its
caller is `values()` of that map: the same connections in an order of the map's choosing. A block
carries nothing but a base pointer, so its place in the list was all that said which buffer it is.

## Main definitions

* `HashMap.IsValues` — the orders a map may iterate in
* `Client.tensorBlocks` — what `VllmRdmaClient::connect` returns
* `InOrder` — what a caller can rely on

## Main results

* `remote_of_ok` — what the remote map of a client that has returned `Ok` is filled from
* `inOrder_iff` — the order survives exactly when there is at most one buffer
-/

namespace RdmaTransport

open Interaction

/-! ### Values of a map -/

/-- `HashMap::values`: every value once, in any order. -/
def HashMap.IsValues {α : Type} (m : HashMap α) (values : List α) : Prop :=
  values.Perm (m.entries.map Sigma.snd)

/-- `TensorBlocks::get_base_ptrs`. -/
def TensorBlocks.getBasePtrs (blocks : TensorBlocks) : List UInt64 := blocks.map TensorBlock.basePtr

/-- What `VllmRdmaClient::connect` returns, from the values of the remote map. -/
def Client.tensorBlocks (values : List Connection) : TensorBlocks :=
  values.map TensorBlock.ofConnection

theorem getBasePtrs_tensorBlocks (values : List Connection) :
    (Client.tensorBlocks values).getBasePtrs = values.map Connection.basePtr := by
  simp [TensorBlocks.getBasePtrs, Client.tensorBlocks, TensorBlock.ofConnection]

/-- A block carries a base pointer and nothing else. -/
theorem tensorBlocks_congr {values values' : List Connection}
    (h : values.map Connection.basePtr = values'.map Connection.basePtr) :
    Client.tensorBlocks values = Client.tensorBlocks values' := by
  have hblocks (vs : List Connection) : Client.tensorBlocks vs =
      (vs.map Connection.basePtr).map fun p => ⟨p, 0, 0⟩ := by
    simp [Client.tensorBlocks, TensorBlock.ofConnection]
  rw [hblocks, hblocks, h]

/-! ### What the server writes -/

/-- The bytes are a list of the buffers, in their order. -/
def Lists (bufs : List GPUMemBuffer) (bytes : List UInt8) : Prop :=
  ∃ cs : Connections, bytes = cs.serialize ∧
    cs.conns.map Connection.basePtr = bufs.map GPUMemBuffer.basePtr

/-- What is written to the page is a list of the buffers. -/
def Writes (bufs : List GPUMemBuffer) : Op → Prop
  | .writePage _ bytes => Lists bufs bytes
  | _ => True

/-- What has been written to the page, if anything has. -/
def AcceptStage.bytes? : AcceptStage → Option (List UInt8)
  | .written _ _ bytes | .offered _ _ bytes | .done _ _ bytes => some bytes
  | _ => none

theorem AcceptStage.bytes?_of_offer {st : AcceptStage} {bytes : List UInt8}
    (h : st.offer? = some bytes) : st.bytes? = some bytes := by
  cases st <;> first | exact h | cases h

/-- What is in the page is a list of the buffers. -/
def Holds (bufs : List GPUMemBuffer) (v : AcceptView) : Prop :=
  ∀ bytes, v.stage.bytes? = some bytes → Lists bufs bytes

variable {bufs : List GPUMemBuffer}

theorem lists_offer (regs : GpuRegs) (h : regs.map Prod.snd = bufs) :
    Lists bufs regs.offer.serialize :=
  ⟨regs.offer, rfl, by simp [GpuRegs.offer, ← h]⟩

theorem writes_of_exchanging (op : Op) (h : Exchanging op) : Writes bufs op := by
  cases op <;> first | exact h.elim | trivial

namespace Server

theorem only_accept_writes (gpuOrdinal : Int) (bufs : List GPUMemBuffer) :
    (accept gpuOrdinal bufs).run.Only (Writes bufs) := by
  rw [accept_eq]
  refine Fallible.only_andThen (Fallible.only_call trivial) fun _ _ => ?_
  refine Fallible.only_andThen (Fallible.only_call trivial) fun _ _ => ?_
  refine Fallible.only_andThen (Fallible.only_call trivial) fun _ _ => ?_
  refine Fallible.only_andThen (only_ibvRegMr trivial) fun _ _ => ?_
  refine Fallible.only_andThen (only_cudaDevicePrimaryCtxRetain trivial trivial) fun _ _ => ?_
  refine Fallible.only_andThen (Fallible.only_call trivial) fun _ _ => ?_
  refine Fallible.only_andThen (only_registerLoop _ _ fun _ _ _ => trivial) fun r hr => ?_
  obtain ⟨regs, hregs, -, rfl⟩ := returns_registerLoop hr
  rw [foldl_offer]
  refine Fallible.only_andThen ((only_establishConn _ _).mono writes_of_exchanging) fun _ _ => ?_
  refine Fallible.only_andThen ((only_serializeInto (lists_offer regs hregs)).bind
    fun _ _ => trivial) fun _ _ => ?_
  refine Fallible.only_andThen (Fallible.only_ofExcept _) fun _ _ => ?_
  refine Fallible.only_andThen (Fallible.only_call trivial) fun _ _ => ?_
  refine Fallible.only_andThen (only_pollComp trivial) fun _ _ => ?_
  trivial

theorem only_acceptTask_writes (gpuOrdinal : Int) (bufs : List GPUMemBuffer) :
    (acceptTask gpuOrdinal bufs).run.Only (Writes bufs) := by
  refine (only_accept_writes gpuOrdinal bufs).bind ?_
  intro r _
  cases r with
  | ok out => trivial
  | error e =>
    refine ⟨trivial, fun _ => ⟨trivial, fun _ => ?_⟩⟩
    exact (Task.only_unwrap trivial).bind fun _ _ => trivial

end Server

/-! ### What the page holds -/

/-- Bytes get into the page by being written, and stay. -/
theorem AcceptStage.bytes?_advance {st : AcceptStage} {e : Event} {bytes : List UInt8}
    (h : (st.advance e).bytes? = some bytes) : st.bytes? = some bytes ∨ e = .wrote bytes := by
  unfold AcceptStage.advance at h
  split at h
  all_goals first
    | exact .inl h
    | cases h; exact .inr rfl

theorem holds_on {v : AcceptView} {e : Event} (hv : Holds bufs v)
    (he : ∀ bytes, e = .wrote bytes → Lists bufs bytes) :
    Holds bufs (v.on AcceptStage.advance e) := by
  intro bytes hbytes
  rcases AcceptStage.bytes?_advance hbytes with hbytes | rfl
  · exact hv bytes hbytes
  · exact he bytes rfl

theorem holds_called {v : AcceptView} {e : Event} (hv : Holds bufs v)
    (he : ∀ bytes, e = .wrote bytes → Lists bufs bytes) (r : CRet) :
    Holds bufs (v.called AcceptStage.advance e r) := by
  rw [PeerView.called]
  split
  · exact holds_on hv he
  · exact hv

theorem holds_polled {v : AcceptView} (hv : Holds bufs v) (cq : Cq) (p : PollRet) :
    Holds bufs (v.polled AcceptStage.advance cq p) := by
  cases p with
  | entry wc => exact holds_on hv nofun
  | _ => exact hv

/-- **One operation.** -/
theorem holds_step {v v' : AcceptView} {op : Op} {r : op.Ans} {choice : PeerView.Choice}
    (hv : Holds bufs v) (hop : Writes bufs op)
    (hr : AcceptView.handler op v choice = some (r, v')) : Holds bufs v' := by
  cases op with
  | letConn conn =>
    obtain ⟨a, -, heq⟩ := Option.bind_eq_some_iff.mp hr
    split at heq
    · cases heq
    · cases heq
      exact holds_on (e := .placed r conn) hv nofun
  | writePage buf bytes =>
    obtain ⟨_, -, heq⟩ := Option.map_eq_some_iff.mp hr
    cases heq
    exact holds_on hv fun _ he => Event.wrote.inj he ▸ hop
  | ibvRegMr addr length access =>
    obtain ⟨ks, -, heq⟩ := Option.map_eq_some_iff.mp hr
    cases heq
    cases r <;> exact hv
  | _ => first
    | cases hr
    | obtain ⟨_, -, heq⟩ := Option.map_eq_some_iff.mp hr
      cases heq
      first
        | exact hv
        | exact holds_polled hv _ _
        | refine holds_called hv ?_ _; exact nofun
        | refine holds_on hv ?_; exact nofun

/-- **The server's page** holds a list of the buffers whenever it holds what has been written. -/
theorem always_holds (gpuOrdinal : Int) (bufs : List GPUMemBuffer) :
    AcceptView.handler.Always (fun _ => Holds bufs) (fun _ => Holds bufs)
      (Server.acceptTask gpuOrdinal bufs).run (.init .start) :=
  Handler.Always.of_only (Server.only_acceptTask_writes gpuOrdinal bufs) nofun (fun _ _ _ h => h)
    fun _ _ _ _ _ hop h hr => holds_step h hop hr

/-! ### What the client knows -/

namespace Handshake

variable {s s' : Handshake}

/-- The invariant goes with the server's task. -/
def ServerHolds (bufs : List GPUMemBuffer) (s : Handshake) : Prop :=
  AcceptView.handler.Always (fun _ => Holds bufs) (fun _ => Holds bufs) s.server.prog
    s.server.world

theorem serverHolds_step {l : Label} (h : ServerHolds bufs s) (hs : s.step l = some s') :
    ServerHolds bufs s' := by
  cases l with
  | server choice =>
    obtain ⟨out, hact, rfl⟩ := Option.map_eq_some_iff.mp hs
    obtain ⟨op, k, r, v, e, cm, hprog, hv, -, -, rfl⟩ := act_eq_some hact
    rw [ServerHolds, hprog] at h
    exact h.2 choice r v hv
  | flush status =>
    simp only [step] at hs
    split at hs
    · obtain ⟨e, -, rfl⟩ := Option.map_eq_some_iff.mp hs
      exact h
    · cases hs
  | _ =>
    obtain ⟨out, -, rfl⟩ := Option.map_eq_some_iff.mp hs
    exact h

theorem ServerHolds.holds (h : ServerHolds bufs s) : Holds bufs s.server.world := by
  rw [ServerHolds] at h
  cases hprog : s.server.prog with
  | ret r => rw [hprog] at h; exact h
  | vis op k => rw [hprog] at h; exact h.1

/-- **The remote map** of a client that has returned `Ok` is filled from a list with the base
pointers of the server's buffers, in their order. -/
theorem remote_of_ok (h : Consistent bufs s) (hholds : ServerHolds bufs s) {out : ConnectResult}
    (hout : s.client.prog = .ret (.ok out)) : ∃ conns : List Connection,
      out.2.2.2 = Client.remoteMap conns ∧
        conns.map Connection.basePtr = bufs.map GPUMemBuffer.basePtr := by
  obtain ⟨wc, page, cs, hle, hread, hcs, hmap⟩ := h.connected hout
  have hin := h.clientSide.recvs
  rw [hread] at hin
  obtain ⟨-, -, bytes, hoffer, himm, hpage⟩ := hin
  obtain ⟨hfits, -⟩ := (h.serverSide.offer hoffer).1
  obtain ⟨cs', rfl, hbases⟩ := hholds.holds bytes (AcceptStage.bytes?_of_offer hoffer)
  have hsize : (ntohl wc.immData).toNat = cs'.serialize.length := by
    rw [himm, ntohl_htonl, UInt32.toNat_ofNat_of_lt' (lt_of_le_of_lt hfits (by decide))]
  have hslice : page.slice (ntohl wc.immData).toNat hle = cs'.serialize := by
    obtain ⟨hlen, hslice⟩ := hpage
    rw [← hslice]
    simp only [hsize]
  rw [hslice, Connections.deserialize_serialize hfits] at hcs
  cases hcs
  exact ⟨_, hmap, hbases⟩

theorem remote_of_reach {ordinal clientOrdinal : Int} {clientBufs : List GPUMemBuffer}
    {serverSlots clientSlots : UInt64 → Connection} {serverPage clientPage : Page}
    {out : ConnectResult}
    (h : Reach step anyStep (.init ordinal bufs clientOrdinal clientBufs
      (.init serverSlots serverPage) (.init clientSlots clientPage)) s)
    (hout : s.client.prog = .ret (.ok out)) : ∃ conns : List Connection,
      out.2.2.2 = Client.remoteMap conns ∧
        conns.map Connection.basePtr = bufs.map GPUMemBuffer.basePtr := by
  have hs : Consistent bufs s := h.invariant
    (consistent_init ordinal clientOrdinal clientBufs serverSlots clientSlots serverPage clientPage)
    fun _ _ _ hs _ hstep => consistent_step hs hstep
  have hholds : ServerHolds bufs s := h.invariant (always_holds ordinal bufs)
    fun _ _ _ hs _ hstep => serverHolds_step hs hstep
  exact remote_of_ok hs hholds hout

/-! ### What the caller can rely on -/

/-- Whatever order the two maps are iterated in, the blocks of the first list the base pointers of
the buffers in their order, and the blocks of the second are the same. -/
def InOrder (bufs : List GPUMemBuffer) (m m' : HashMap Connection) : Prop :=
  ∀ values values', m.IsValues values → m'.IsValues values' →
    (Client.tensorBlocks values).getBasePtrs = bufs.map GPUMemBuffer.basePtr ∧
      Client.tensorBlocks values = Client.tensorBlocks values'

/-- With distinct base pointers, the values of the map are the list it is filled from, in any
order. -/
theorem isValues_remoteMap {conns values : List Connection}
    (hnodup : (conns.map Connection.basePtr).Nodup) :
    (Client.remoteMap conns).IsValues values ↔ values.Perm conns := by
  have hperm : ((Client.remoteMap conns).entries.map Sigma.snd).Perm (conns.map id) :=
    entries_insertAll_perm hnodup
  rw [List.map_id] at hperm
  exact ⟨fun h => h.trans hperm, fun h => h.trans hperm.symm⟩

/-- A list without repetitions that reads the same backwards has one element at most. -/
theorem length_le_one_of_reverse {α : Type} {l : List α} (hnodup : l.Nodup) (h : l.reverse = l) :
    l.length ≤ 1 := by
  match l with
  | [] => exact Nat.zero_le 1
  | [_] => exact le_refl 1
  | a :: b :: rest =>
    have hlast : (a :: b :: rest).getLast? = some a := by
      rw [← List.head?_reverse, h]
      rfl
    have hmem : a ∈ b :: rest := by
      rw [List.getLast?_cons_cons] at hlast
      exact List.mem_of_getLast? hlast
    exact absurd hmem (List.nodup_cons.mp hnodup).1

theorem perm_eq_of_length_le_one {α : Type} {l l' : List α} (hl : l.length ≤ 1)
    (h : l'.Perm l) : l' = l := by
  match l with
  | [] => exact h.eq_nil
  | [a] => exact List.perm_singleton.mp h

/-- **The order of the buffers.** For every list of server buffers with distinct base pointers and
any two clients whose `connect` has returned `Ok`: the blocks list the server's base pointers in
their order and are the same for both, in whatever order the maps are iterated, if and only if the
server has at most one buffer. -/
theorem inOrder_iff {ordinal ordinal' clientOrdinal clientOrdinal' : Int}
    {bufs clientBufs clientBufs' : List GPUMemBuffer}
    {serverSlots serverSlots' clientSlots clientSlots' : UInt64 → Connection}
    {serverPage serverPage' clientPage clientPage' : Page} {out out' : ConnectResult}
    (h : Reach step anyStep (.init ordinal bufs clientOrdinal clientBufs
      (.init serverSlots serverPage) (.init clientSlots clientPage)) s)
    (h' : Reach step anyStep (.init ordinal' bufs clientOrdinal' clientBufs'
      (.init serverSlots' serverPage') (.init clientSlots' clientPage')) s')
    (hdistinct : (bufs.map GPUMemBuffer.basePtr).Nodup)
    (hout : s.client.prog = .ret (.ok out)) (hout' : s'.client.prog = .ret (.ok out')) :
    InOrder bufs out.2.2.2 out'.2.2.2 ↔ bufs.length ≤ 1 := by
  obtain ⟨conns, hmap, hbases⟩ := remote_of_reach h hout
  obtain ⟨conns', hmap', hbases'⟩ := remote_of_reach h' hout'
  have hlen : conns.length = bufs.length := by
    simpa using congrArg List.length hbases
  have hlen' : conns'.length = bufs.length := by
    simpa using congrArg List.length hbases'
  rw [hmap, hmap']
  constructor
  · intro hall
    have hforth := (hall conns conns' ((isValues_remoteMap (hbases ▸ hdistinct)).mpr (.refl _))
      ((isValues_remoteMap (hbases' ▸ hdistinct)).mpr (.refl _))).1
    have hback := (hall conns.reverse conns'
      ((isValues_remoteMap (hbases ▸ hdistinct)).mpr (List.reverse_perm _))
      ((isValues_remoteMap (hbases' ▸ hdistinct)).mpr (.refl _))).1
    rw [getBasePtrs_tensorBlocks, List.map_reverse, hbases] at hback
    simpa using length_le_one_of_reverse hdistinct hback
  · intro hone values values' hvalues hvalues'
    rw [isValues_remoteMap (hbases ▸ hdistinct)] at hvalues
    rw [isValues_remoteMap (hbases' ▸ hdistinct)] at hvalues'
    obtain rfl := perm_eq_of_length_le_one (by omega) hvalues
    obtain rfl := perm_eq_of_length_le_one (by omega) hvalues'
    exact ⟨by rw [getBasePtrs_tensorBlocks, hbases], tensorBlocks_congr (hbases.trans hbases'.symm)⟩

/-- A client that has returned `Ok` to a server of two buffers, and its map. -/
theorem exists_two_buffers : ∃ s, Reach step anyStep
    (.init 0 [⟨65536, 16⟩, ⟨131072, 32⟩] 0 [⟨262144, 16⟩] (.init (fun _ => .zero) .zero)
      (.init (fun _ => .zero) .zero)) s ∧
    ∃ out, s.client.prog = .ret (.ok out) ∧
      out.2.2.2.entries.map Sigma.snd = [⟨131072, 13⟩, ⟨65536, 12⟩] :=
  exists_reach_of_execWithin agreeingRun ⟨_, rfl, _, rfl, rfl⟩

theorem inOrder_iff_two_buffers : ∃ s out, Reach step anyStep
    (.init 0 [⟨65536, 16⟩, ⟨131072, 32⟩] 0 [⟨262144, 16⟩] (.init (fun _ => .zero) .zero)
      (.init (fun _ => .zero) .zero)) s ∧
    s.client.prog = .ret (.ok out) ∧
      ¬ InOrder [⟨65536, 16⟩, ⟨131072, 32⟩] out.2.2.2 out.2.2.2 := by
  obtain ⟨s, hs, out, hout, -⟩ := exists_two_buffers
  exact ⟨s, out, hs, hout, mt (inOrder_iff hs hs (by decide) hout hout).mp (by decide)⟩

/-- The first block names the second buffer. -/
theorem blocks_swapped : ∃ s out values, Reach step anyStep
    (.init 0 [⟨65536, 16⟩, ⟨131072, 32⟩] 0 [⟨262144, 16⟩] (.init (fun _ => .zero) .zero)
      (.init (fun _ => .zero) .zero)) s ∧
    s.client.prog = .ret (.ok out) ∧ out.2.2.2.IsValues values ∧
      (Client.tensorBlocks values).getBasePtrs = [131072, 65536] := by
  obtain ⟨s, hs, out, hout, hentries⟩ := exists_two_buffers
  refine ⟨s, out, [⟨131072, 13⟩, ⟨65536, 12⟩], hs, hout, ?_, rfl⟩
  rw [HashMap.IsValues, hentries]

end Handshake

end RdmaTransport
