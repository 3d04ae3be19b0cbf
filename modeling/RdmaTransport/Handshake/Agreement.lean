import RdmaTransport.Handshake.ClientSide

/-!
# The handshake agrees and does not get stuck

In every interleaving of `accept` and `connect`, with calls that may fail at any point:

* the two sides are never both blocked with nothing on its way;
* if both return `Ok`, each holds the other's page and key, and the client's remote map gives, for
  each base pointer of the server's list, the key of the region the server keeps for it;
* a list that does not fit the page is an error on both sides, and a client that waits for it is
  woken by the server's disconnect, once that has succeeded.

## Main definitions

* `Consistent` — the invariant
* `Agree` — what the two results have to do with each other

## Main results

* `handshake` — the three statements together
-/

namespace RdmaTransport

namespace Handshake

open Interaction

/-! ### The invariant -/

/-- Both programs follow their rules, and both sides are in order. -/
structure Consistent (bufs : List GPUMemBuffer) (s : Handshake) : Prop where
  /-- `accept` follows its rule. -/
  server : AcceptView.handler.Always (AcceptRule bufs) (fun r v => (∀ out, r = .ok out →
    Accepted bufs out v) ∧ ∀ e, r = .error e → v.closed = true) s.server.prog s.server.world
  /-- `connect` follows its rule. -/
  client : ConnectView.handler.Always ConnectRule (fun r v => ∀ out, r = .ok out → Connected out v)
    s.client.prog s.client.world
  /-- The server's side. -/
  serverSide : ServerSide bufs s.server.world.stage s.serverEnd s.cm.accepted
    s.client.world.stage.messages s.clientEnd.landed
  /-- The client's side. -/
  clientSide : ClientSide s.client.world s.clientEnd s.cm.accepted s.server.world.stage
    s.serverEnd.landed
  /-- Whether the server has disconnected. -/
  closed : s.server.world.closed = s.cm.disconnected

section Steps

variable {bufs : List GPUMemBuffer} {s s' : Handshake}

theorem consistent_init (serverOrdinal clientOrdinal : Int) (clientBufs : List GPUMemBuffer)
    (serverSlots clientSlots : UInt64 → Connection) (serverPage clientPage : Page) :
    Consistent bufs (.init serverOrdinal bufs clientOrdinal clientBufs
      (.init serverSlots serverPage) (.init clientSlots clientPage)) where
  server := Server.always_acceptTask serverOrdinal bufs
  client := ensures_connect rfl
  serverSide := ⟨⟨rfl, rfl, rfl, rfl⟩, ⟨rfl, le_refl _, rfl⟩, trivial⟩
  clientSide := ⟨⟨rfl, rfl, rfl⟩, ⟨rfl, le_refl _, rfl⟩, nofun, nofun⟩
  closed := rfl

theorem consistent_server {choice : PeerView.Choice} (h : Consistent bufs s)
    (hs : s.step (.server choice) = some s') : Consistent bufs s' := by
  obtain ⟨out, hact, rfl⟩ := Option.map_eq_some_iff.mp hs
  obtain ⟨op, k, r, v, e, cm, hprog, hv, he, hcm, rfl⟩ := act_eq_some hact
  obtain ⟨hserver, hclient, hsside, hcside, hclosed⟩ := h
  rw [hprog] at hserver
  obtain ⟨hside, hgrows, hlanded, haccepted⟩ := serverStep hserver.head hsside hv he hcm
  exact ⟨hserver.2 choice r v hv, hclient, hside, ⟨hcside.recvs.grows hgrows,
    hlanded.symm ▸ hcside.sends, hcside.owns, fun hup => haccepted (hcside.up hup)⟩,
    closed_eq hserver.head hv hcm hclosed⟩

theorem consistent_client {choice : PeerView.Choice} (h : Consistent bufs s)
    (hs : s.step (.client choice) = some s') : Consistent bufs s' := by
  obtain ⟨out, hact, rfl⟩ := Option.map_eq_some_iff.mp hs
  obtain ⟨op, k, r, v, e, cm, hprog, hv, he, hcm, rfl⟩ := act_eq_some hact
  obtain ⟨hserver, hclient, hsside, hcside, hclosed⟩ := h
  rw [hprog] at hclient
  obtain ⟨rfl, hside, hgrows, hlanded⟩ := clientStep hclient.head hcside hv he hcm
  refine ⟨hserver, hclient.2 choice r v hv, ?_, hside, hclosed⟩
  change ServerSide bufs _ _ _ v.stage.messages e.landed
  rw [hlanded]
  exact hsside.of_messages hgrows

theorem consistent_read (h : Consistent bufs s) (hs : s.step .read = some s') :
    Consistent bufs s' := by
  obtain ⟨c, hstep, rfl⟩ := Option.map_eq_some_iff.mp hs
  obtain ⟨hserver, hclient, hsside, hcside, hclosed⟩ := h
  cases hprog : s.client.prog with
  | ret a => rw [Handler.step, hprog] at hstep; cases hstep
  | vis op k =>
    rw [Handler.step, hprog] at hstep
    obtain ⟨⟨r, v⟩, hv, rfl⟩ := Option.map_eq_some_iff.mp hstep
    rw [hprog] at hclient
    cases op with
    | readPage buf =>
      have hside := clientStep_read hclient.head hcside
      cases hv
      exact ⟨hserver, hclient.2 (.page s.clientEnd.page) _ _ rfl, hsside.of_messages hside.grows,
        hside.side, hclosed⟩
    | _ => cases hv

theorem land_eq_some {src dst : End} {grants : Connection → Bool} {out : End × End}
    (h : land src dst grants = some out) : ∃ msg outbox a recvs,
      src.outbox = msg :: outbox ∧ dst.recvs = a :: recvs ∧
      out.1 = { src with outbox := outbox, sendCq := src.sendCq ++ [⟨ibvWcSuccess, 0, 0⟩] } ∧
      ((∃ conn, msg = .send conn ∧ out.2 = { dst with
          slots := Function.update dst.slots a conn
          recvs := recvs
          recvCq := dst.recvCq ++ [⟨ibvWcSuccess, ibvWcRecv, 0⟩]
          landed := dst.landed + 1 }) ∨
        ∃ peer imm, msg = .write peer imm ∧ out.2 = { dst with
          page := src.page
          recvs := recvs
          recvCq := dst.recvCq ++ [⟨ibvWcSuccess, ibvWcRecvRdmaWithImm, imm⟩]
          landed := dst.landed + 1 }) := by
  unfold land at h
  split at h
  next msg outbox a recvs hout hrecvs =>
    refine ⟨msg, outbox, a, recvs, hout, hrecvs, ?_⟩
    cases msg with
    | send conn => cases h; exact ⟨rfl, .inl ⟨conn, rfl, rfl⟩⟩
    | write peer imm =>
      simp only at h
      split at h
      · cases h; exact ⟨rfl, .inr ⟨peer, imm, rfl, rfl⟩⟩
      · cases h
  · cases h

theorem consistent_toServer (h : Consistent bufs s) (hs : s.step .toServer = some s') :
    Consistent bufs s' := by
  obtain ⟨⟨src, dst⟩, hland, rfl⟩ := Option.map_eq_some_iff.mp hs
  obtain ⟨msg, outbox, a, recvs, hout, hrecvs, hsrc, hdst⟩ := land_eq_some hland
  obtain ⟨hserver, hclient, hsside, hcside, hclosed⟩ := h
  have hget := hcside.sends.oldest hout
  rcases s.client.world.stage.messages_eq with hmsgs | ⟨own, hmsgs⟩
  · rw [hmsgs] at hget
    cases hget
  have haccepted : s.cm.accepted = true :=
    hcside.up (ConnectStage.isUp_of_messages (by simp [hmsgs]))
  rw [hmsgs, haccepted] at hsside
  obtain ⟨-, -, -, hlanded⟩ := hsside.recvs.recv hrecvs
  rw [hmsgs, hlanded] at hget
  cases hget
  rcases hdst with ⟨conn, hconn, hdst⟩ | ⟨_, _, hwrite, -⟩
  · cases hconn
    simp only at hsrc hdst
    subst hsrc hdst
    refine ⟨hserver, hclient, ?_, ?_, hclosed⟩
    · change ServerSide bufs _ _ s.cm.accepted s.client.world.stage.messages _
      rw [hmsgs, haccepted]
      exact hsside.land hrecvs
    · exact ⟨hcside.recvs.congr rfl rfl rfl rfl rfl, hcside.sends.land hout, hcside.owns, hcside.up⟩
  · cases hwrite

theorem consistent_toClient (h : Consistent bufs s) (hs : s.step .toClient = some s') :
    Consistent bufs s' := by
  obtain ⟨⟨src, dst⟩, hland, rfl⟩ := Option.map_eq_some_iff.mp hs
  obtain ⟨msg, outbox, a, recvs, hout, hrecvs, hsrc, hdst⟩ := land_eq_some hland
  obtain ⟨hserver, hclient, hsside, hcside, hclosed⟩ := h
  have hget := hsside.sends.oldest hout
  simp only at hsrc hdst
  subst hsrc
  have hsside' : ServerSide bufs s.server.world.stage
      { s.serverEnd with
        outbox := outbox
        sendCq := s.serverEnd.sendCq ++ [⟨ibvWcSuccess, 0, 0⟩] } s.cm.accepted
      s.client.world.stage.messages (s.clientEnd.landed + 1) :=
    ⟨hsside.recvs.congr rfl rfl rfl rfl, hsside.sends.land hout, hsside.page⟩
  rcases hdst with ⟨conn, rfl, hdst⟩ | ⟨peer, imm, rfl, hdst⟩
  · subst hdst
    exact ⟨hserver, hclient, hsside', hcside.land_send hrecvs hget, hclosed⟩
  · subst hdst
    exact ⟨hserver, hclient, hsside', hcside.land_write hrecvs hget fun bytes hoffer =>
      (hsside.offer hoffer).2, hclosed⟩

theorem consistent_flush {status : UInt32} (h : Consistent bufs s)
    (hs : s.step (.flush status) = some s') : Consistent bufs s' := by
  simp only [step] at hs
  split at hs
  · obtain ⟨e, he, rfl⟩ := Option.map_eq_some_iff.mp hs
    obtain ⟨hserver, hclient, hsside, hcside, hclosed⟩ := h
    obtain ⟨hside, hlanded⟩ := hcside.flush he
    exact ⟨hserver, hclient, hlanded.symm ▸ hsside, hside, hclosed⟩
  · cases hs

/-- **One step** keeps the invariant. -/
theorem consistent_step {l : Label} (h : Consistent bufs s) (hs : s.step l = some s') :
    Consistent bufs s' := by
  cases l with
  | server choice => exact consistent_server h hs
  | client choice => exact consistent_client h hs
  | read => exact consistent_read h hs
  | toServer => exact consistent_toServer h hs
  | toClient => exact consistent_toClient h hs
  | flush status => exact consistent_flush h hs

end Steps

/-! ### Nobody waits for ever -/

section Blocked

variable {bufs : List GPUMemBuffer} {s : Handshake}

/-- A client that waits has its page on its way, or a receive posted. -/
theorem Consistent.clientBlocked (h : Consistent bufs s) (hb : s.ClientBlocked) :
    (s.serverEnd.landed = 0 ∧ ∃ own rest, s.clientEnd.outbox = .send own :: rest) ∨
      (s.serverEnd.landed = 1 ∧ ∃ a, s.clientEnd.recvs = [a]) := by
  obtain ⟨cq, hop, hempty⟩ := hb
  obtain ⟨-, hclient, -, hcside, -⟩ := h
  cases hprog : s.client.prog with
  | ret r => rw [hprog] at hop; cases hop
  | vis op k =>
    rw [hprog] at hop hclient
    cases hop
    have hrule : ConnectRule (.ibvPollCq cq) s.client.world := hclient.head
    cases cq with
    | send =>
      obtain ⟨a, own, hstage⟩ := hrule
      have hsends := hcside.sends
      rw [hstage] at hsends
      have hempty : s.clientEnd.sendCq = [] := hempty
      refine .inl ⟨?_, own, hsends.exists_msg hempty Nat.one_pos⟩
      have hreaped := hsends.reaped
      rw [hempty] at hreaped
      exact hreaped.symm
    | recv =>
      have hempty : s.clientEnd.recvCq = [] := hempty
      have hin := hcside.recvs
      have hsends := hcside.sends
      rcases hrule with ⟨a, own, hstage⟩ | ⟨own, peer, hstage⟩ <;> rw [hstage] at hin hsends
      · refine .inr ⟨hsends.landed_eq rfl rfl, ?_⟩
        rcases hin with ⟨hrecvs, -⟩ | ⟨-, wc, hone, -⟩
        · exact ⟨a, hrecvs⟩
        · rw [hempty] at hone; cases hone
      · refine .inr ⟨hsends.landed_eq rfl rfl, ?_⟩
        obtain ⟨-, ⟨a, hrecvs, -⟩ | ⟨-, wc, hone, -⟩⟩ := hin
        · exact ⟨a, hrecvs⟩
        · rw [hempty] at hone; cases hone

/-- A server that waits has a receive posted, or a message on its way. -/
theorem Consistent.serverBlocked (h : Consistent bufs s) (hb : s.ServerBlocked) :
    (s.serverEnd.landed = 0 ∧ ∃ a, s.serverEnd.recvs = [a]) ∨
      (s.serverEnd.landed = 1 ∧ ∃ msg rest, s.serverEnd.outbox = msg :: rest) := by
  obtain ⟨cq, hop, hempty⟩ := hb
  obtain ⟨hserver, -, hsside, -, -⟩ := h
  cases hprog : s.server.prog with
  | ret r => rw [hprog] at hop; cases hop
  | vis op k =>
    rw [hprog] at hop hserver
    cases hop
    have hrule : AcceptRule bufs (.ibvPollCq cq) s.server.world := hserver.head
    have hin := hsside.recvs
    cases cq with
    | send =>
      have hsends := hsside.sends
      rcases hrule with ⟨a, own, hstage⟩ | ⟨own, peer, bytes, hstage⟩ <;>
        rw [hstage] at hin hsends <;> obtain ⟨-, -, hlanded, -⟩ := hin
      · exact .inr ⟨hlanded, _, hsends.exists_msg hempty Nat.one_pos⟩
      · exact .inr ⟨hlanded, _, hsends.exists_msg hempty Nat.one_lt_two⟩
    | recv =>
      have hempty : s.serverEnd.recvCq = [] := hempty
      obtain ⟨a, hstage⟩ := hrule
      rw [hstage] at hin
      rcases hin with ⟨hrecvs, -, hlanded⟩ | ⟨-, -, -, wc, hone⟩
      · exact .inl ⟨hlanded, a, hrecvs⟩
      · rw [hempty] at hone; cases hone

/-- The client lets the server write the page that the client has told it about. -/
theorem ClientSide.grants {v : ConnectView} {e : End} {accepted : Bool} {st : AcceptStage}
    {landed : ℕ} {own : Connection} (h : ClientSide v e accepted st landed)
    (hmsgs : v.stage.messages = [.send own]) : v.grants own = true := by
  obtain ⟨mr, buf, rfl, hcpu, hmem, haddr⟩ := h.owns own (ConnectStage.own?_of_messages hmsgs)
  simp only [PeerView.grants, hcpu, beq_self_eq_true, Bool.true_and, List.any_eq_true]
  exact ⟨mr, hmem, by simp [haddr]⟩

/-- The list is written into the page that the client has told the server about. -/
theorem ServerSide.messages_of_write {st : AcceptStage} {e : End} {accepted : Bool}
    {msgs : List Msg} {landed i : ℕ} {peer : Connection} {imm : UInt32}
    (h : ServerSide bufs st e accepted msgs landed)
    (hi : st.messages[i]? = some (.write peer imm)) : msgs = [.send peer] := by
  have hin := h.recvs
  cases st with
  | offered _ _ _ | done _ _ _ =>
    rcases i with _ | _ | i
    · cases hi
    · cases hi; exact hin.2.2.2
    · simp [AcceptStage.messages] at hi
  | _ => rcases i with _ | i <;> simp [AcceptStage.messages] at hi

theorem isSome_land_send {src dst : End} {grants : Connection → Bool} {conn : Connection}
    {rest : List Msg} {a : UInt64} {recvs : List UInt64} (hout : src.outbox = .send conn :: rest)
    (hrecvs : dst.recvs = a :: recvs) : (land src dst grants).isSome := by
  rw [land, hout, hrecvs]
  rfl

theorem isSome_land_write {src dst : End} {grants : Connection → Bool} {peer : Connection}
    {imm : UInt32} {rest : List Msg} {a : UInt64} {recvs : List UInt64}
    (hout : src.outbox = .write peer imm :: rest) (hrecvs : dst.recvs = a :: recvs)
    (hgrants : grants peer = true) : (land src dst grants).isSome := by
  rw [land, hout, hrecvs]
  simp only [hgrants, if_true, Option.isSome_some]

/-- A message of the server lands as soon as the client has a receive posted. -/
theorem Consistent.isSome_toClient {msg : Msg} {rest : List Msg} {a : UInt64} {recvs : List UInt64}
    (h : Consistent bufs s) (hout : s.serverEnd.outbox = msg :: rest)
    (hrecvs : s.clientEnd.recvs = a :: recvs) : (s.step .toClient).isSome := by
  rw [step, Option.isSome_map]
  cases msg with
  | send conn => exact isSome_land_send hout hrecvs
  | write peer imm =>
    have hget := h.serverSide.sends.oldest hout
    exact isSome_land_write hout hrecvs
      (h.clientSide.grants (h.serverSide.messages_of_write hget))

/-- **No deadlock.** -/
theorem Consistent.not_blocked (h : Consistent bufs s) :
    ¬ (s.ServerBlocked ∧ s.ClientBlocked ∧ ¬ s.InFlight) := by
  rintro ⟨hserver, hclient, hflight⟩
  rcases h.clientBlocked hclient with ⟨hzero, own, rest, hout⟩ | ⟨hone, a, hrecvs⟩
  · rcases h.serverBlocked hserver with ⟨-, a, hrecvs⟩ | ⟨hone, -⟩
    · refine hflight (.inl ?_)
      rw [step, Option.isSome_map]
      exact isSome_land_send hout hrecvs
    · omega
  · rcases h.serverBlocked hserver with ⟨hzero, -⟩ | ⟨-, msg, rest, hout⟩
    · omega
    · exact hflight (.inr (.inl (h.isSome_toClient hout hrecvs)))

/-- **A waiting client is woken** once the server has disconnected. -/
theorem Consistent.inFlight_of_disconnected (h : Consistent bufs s)
    (hdisconnected : s.cm.disconnected = true) (hclient : s.ClientBlocked) : s.InFlight := by
  rcases h.clientBlocked hclient with ⟨hzero, own, rest, hout⟩ | ⟨-, a, hrecvs⟩
  · refine .inl ?_
    have hget := h.clientSide.sends.oldest hout
    have haccepted : s.cm.accepted = true :=
      h.clientSide.up (ConnectStage.isUp_of_messages fun hnil => by rw [hnil] at hget; cases hget)
    obtain ⟨a, hrecvs⟩ := h.serverSide.recvs_of_accepted haccepted hzero
    rw [step, Option.isSome_map]
    exact isSome_land_send hout hrecvs
  · refine .inr (.inr ⟨5, ?_⟩)
    simp only [step, hdisconnected, if_true, Option.isSome_map, End.flush, hrecvs]
    rfl

end Blocked

/-! ### Agreement -/

/-- Each side holds the other's page and its key, and the client's remote map has the base pointers
of the server's list, each with the key of the region that the server keeps for it. -/
structure Agree (bufs : List GPUMemBuffer) (out : AcceptResult) (out' : ConnectResult) : Prop where
  /-- The server holds the client's page. -/
  clientPage : out.1 = ⟨out'.2.1.2.ptr, out'.2.1.1.rkey⟩
  /-- The client holds the server's page. -/
  serverPage : out'.1 = ⟨out.2.1.2.ptr, out.2.1.1.rkey⟩
  /-- The client knows the base pointers. -/
  keys : ∀ k, k ∈ out'.2.2.2 ↔ k ∈ bufs.map GPUMemBuffer.basePtr
  /-- And the keys. -/
  lookup : ∀ k, out'.2.2.2.lookup k = (out.2.2.lookup k).map fun q => ⟨k, q.1.rkey⟩

/-- The list of the buffers does not fit the page. -/
def TooLong (bufs : List GPUMemBuffer) : Prop :=
  ∀ cs : Connections, cs.conns.length = bufs.length → cpuBufferBaseSize < cs.serializedSize

theorem not_tooLong_of_offers {bufs : List GPUMemBuffer} {bytes : List UInt8}
    (h : Offers bufs bytes) : ¬ TooLong bufs := by
  obtain ⟨hfits, cs, rfl, hlength⟩ := h
  exact fun hlong => absurd hfits (not_le.mpr (hlong cs hlength))

/-- The client fills its map from the list as the server fills its own from the regions. -/
theorem lookup_remoteMap (regs : GpuRegs) (k : UInt64) :
    (Client.remoteMap regs.offer.conns).lookup k =
      (regs.kept.lookup k).map fun q => ⟨k, q.1.rkey⟩ := by
  have hremote : Client.remoteMap regs.offer.conns =
      insertAll Connection.basePtr id regs.offer.conns ∅ := rfl
  rw [hremote, lookup_insertAll, GpuRegs.kept, lookup_insertAll, GpuRegs.offer, lastAt_map]
  cases hlast : lastAt (fun q : IbvMr × GPUMemBuffer => q.2.basePtr) regs k with
  | none => rfl
  | some q =>
    rw [← key_of_lastAt hlast]
    rfl

theorem mem_remoteMap (regs : GpuRegs) (k : UInt64) :
    k ∈ Client.remoteMap regs.offer.conns ↔ k ∈ (regs.map Prod.snd).map GPUMemBuffer.basePtr := by
  have hremote : Client.remoteMap regs.offer.conns =
      insertAll Connection.basePtr id regs.offer.conns ∅ := rfl
  have hbases : regs.offer.conns.map Connection.basePtr =
      (regs.map Prod.snd).map GPUMemBuffer.basePtr := by simp [GpuRegs.offer]
  rw [hremote, mem_insertAll, hbases]
  exact or_iff_left (AList.notMem_empty k)

section Results

variable {bufs : List GPUMemBuffer} {s : Handshake}

/-- A server that has returned `Ok` has offered the list. -/
theorem Consistent.accepted (h : Consistent bufs s) {out : AcceptResult}
    (hout : s.server.prog = .ret (.ok out)) : Accepted bufs out s.server.world := by
  have hserver := h.server
  rw [hout] at hserver
  exact hserver.1 out rfl

/-- A client that has returned `Ok` has been told the list. -/
theorem Consistent.connected (h : Consistent bufs s) {out : ConnectResult}
    (hout : s.client.prog = .ret (.ok out)) : Connected out s.client.world := by
  have hclient := h.client
  rw [hout] at hclient
  exact hclient out rfl

/-- **Two `Ok`s agree.** -/
theorem Consistent.agree (h : Consistent bufs s) {out : AcceptResult} {out' : ConnectResult}
    (hserver : s.server.prog = .ret (.ok out)) (hclient : s.client.prog = .ret (.ok out')) :
    Agree bufs out out' := by
  obtain ⟨regs, hregs, hkept, hdone⟩ := h.accepted hserver
  obtain ⟨wc, page, cs, hle, hread, hcs, hmap⟩ := h.connected hclient
  have hin := h.clientSide.recvs
  have hsin := h.serverSide.recvs
  rw [hdone] at hin hsin
  rw [hread] at hin hsin
  obtain ⟨-, hshown, bytes, hoffer, himm, hpage⟩ := hin
  obtain ⟨-, -, -, hheard⟩ := hsin
  cases hoffer
  -- The bytes of the page are the encoding of the list, so that is what they decode to.
  have hoffered : s.server.world.stage.offer? = some regs.offer.serialize := by rw [hdone]; rfl
  obtain ⟨hfits, -⟩ := (h.serverSide.offer hoffered).1
  have hsize : (ntohl wc.immData).toNat = regs.offer.serialize.length := by
    rw [himm, ntohl_htonl, UInt32.toNat_ofNat_of_lt' (lt_of_le_of_lt hfits (by decide))]
  have hslice : page.slice (ntohl wc.immData).toNat hle = regs.offer.serialize := by
    obtain ⟨hlen, hslice⟩ := hpage
    rw [← hslice]
    simp only [hsize]
  rw [hslice, Connections.deserialize_serialize hfits] at hcs
  cases hcs
  refine ⟨(Msg.send.inj (List.cons.inj hheard).1).symm,
    (Msg.send.inj (Option.some.inj hshown)).symm, fun k => ?_, fun k => ?_⟩
  · rw [hmap, ← hregs]
    exact mem_remoteMap regs k
  · rw [hmap, hkept]
    exact lookup_remoteMap regs k

/-- A list that is too long is never offered. -/
theorem Consistent.offer_of_tooLong (h : Consistent bufs s) (hlong : TooLong bufs) :
    s.server.world.stage.offer? = none := by
  cases hoffer : s.server.world.stage.offer? with
  | none => rfl
  | some bytes => exact absurd hlong (not_tooLong_of_offers (h.serverSide.offer hoffer).1)

/-- **A list that is too long** is an error on both sides, and the client is not left waiting. -/
theorem Consistent.of_tooLong (h : Consistent bufs s) (hlong : TooLong bufs) :
    (∀ r, s.server.prog = .ret r → ∃ e, r = .error e) ∧
      (∀ r, s.client.prog = .ret r → ∃ e, r = .error e) ∧
      ((∃ r, s.server.prog = .ret r) → s.ClientBlocked → s.InFlight) := by
  have hoffer := h.offer_of_tooLong hlong
  have hserver (r : Except TransportErrors AcceptResult) (hr : s.server.prog = .ret r) :
      ∃ e, r = .error e := by
    cases r with
    | error e => exact ⟨e, rfl⟩
    | ok out =>
      obtain ⟨regs, -, -, hdone⟩ := h.accepted hr
      rw [hdone] at hoffer
      cases hoffer
  refine ⟨hserver, fun r hr => ?_, fun ⟨r, hr⟩ => h.inFlight_of_disconnected ?_⟩
  · cases r with
    | error e => exact ⟨e, rfl⟩
    | ok out =>
      obtain ⟨wc, page, cs, hle, hread, -⟩ := h.connected hr
      have hin := h.clientSide.recvs
      rw [hread] at hin
      obtain ⟨-, -, bytes, hbytes, -⟩ := hin
      rw [hoffer] at hbytes
      cases hbytes
  · obtain ⟨e, rfl⟩ := hserver r hr
    have hprog := h.server
    rw [hr] at hprog
    exact h.closed.symm.trans (hprog.2 e rfl)

end Results

/-- A handshake in which every call succeeds. The server offers two buffers with one base
pointer. -/
def agreeingRun : List Label :=
  [.server (.ret (.ret 0 0)), .server (.ret (.ret 0 0)), .server (.addr 4096),
    .server (.keys (some (1, 11))), .server (.code 0), .server (.code 0), .server (.code 0),
    .server (.keys (some (2, 12))), .server (.keys (some (3, 13))), .server (.addr 64),
    .server (.ret (.ret 0 0)), .client (.ret (.ret 0 0)), .client (.addr 8192),
    .client (.keys (some (1, 21))), .client (.code 0), .client (.code 0), .client (.code 0),
    .client (.keys (some (2, 22))), .client (.addr 64), .client (.ret (.ret 0 0)),
    .server (.ret (.ret 0 0)), .client (.ret (.ret 0 0)), .client (.addr 128),
    .client (.ret (.ret 0 0)), .toServer,
    .server (.polled (.entry ⟨ibvWcSuccess, ibvWcRecv, 0⟩)), .server (.addr 128),
    .server (.ret (.ret 0 0)), .toClient, .server (.polled (.entry ⟨ibvWcSuccess, 0, 0⟩)),
    .server (.conn ⟨8192, 21⟩), .server .go, .server (.ret (.ret 0 0)),
    .client (.polled (.entry ⟨ibvWcSuccess, 0, 0⟩)),
    .client (.polled (.entry ⟨ibvWcSuccess, ibvWcRecv, 0⟩)), .client (.conn ⟨4096, 11⟩),
    .client (.ret (.ret 0 0)), .toClient, .server (.polled (.entry ⟨ibvWcSuccess, 0, 0⟩)),
    .client (.polled (.entry ⟨ibvWcSuccess, ibvWcRecvRdmaWithImm, htonl 32⟩)), .read]

end Handshake

end RdmaTransport
