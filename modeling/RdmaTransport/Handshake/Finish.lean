import RdmaTransport.Internal.Leads
import RdmaTransport.Handshake.Running

/-!
# The handshake comes to an end

If no call fails, every run of `accept` and `connect` against each other is finite, and where it
cannot go on both have returned: if the server's list fits the page, with results that agree, and
otherwise both with an error, the client because its receive is flushed.

A side that cannot go on polls a queue that is empty, or has returned. Both cannot poll; and a side
that polls while the other has returned waits for a message that has been posted and can land, or
is flushed.

## Main definitions

* `Finished` — both sides have returned

## Main results

* `leads_finished` — every run finishes
-/

namespace RdmaTransport

namespace Handshake

open Interaction

/-! ### Every run is finite -/

/-- The messages that have not landed and the receives that can be flushed. -/
def pending (s : Handshake) : ℕ :=
  s.serverEnd.outbox.length + s.clientEnd.outbox.length + s.clientEnd.recvs.length

/-- `s'` is closer to the end than `s`: an operation of the client, an operation of the server, and
a message that lands or a receive that is flushed, in this order. -/
def Nearer : Handshake → Handshake → Prop :=
  InvImage (Prod.Lex Prog.Continues (Prod.Lex Prog.Continues (· < ·)))
    fun s => (s.client.prog, s.server.prog, s.pending)

theorem wellFounded_nearer : WellFounded Nearer :=
  InvImage.wf _ (Prog.wellFounded_continues.prod_lex
    (Prog.wellFounded_continues.prod_lex wellFounded_lt))

section Nearer

variable {s s' : Handshake}

theorem length_recvs_of_land {src dst src' dst' : End} {grants : Connection → Bool}
    (h : land src dst grants = some (src', dst')) :
    src'.outbox.length + 1 = src.outbox.length ∧ src'.recvs = src.recvs ∧
      dst'.outbox = dst.outbox ∧ dst'.recvs.length + 1 = dst.recvs.length := by
  obtain ⟨msg, outbox, a, recvs, hout, hrecvs, hsrc, hdst⟩ := land_eq_some h
  simp only at hsrc hdst
  subst hsrc
  rcases hdst with ⟨conn, -, rfl⟩ | ⟨peer, imm, -, rfl⟩ <;> simp [hout, hrecvs]

/-- **Every step** comes closer to the end. -/
theorem nearer_step {l : Label} (hs : s.step l = some s') : Nearer s' s := by
  cases l with
  | server choice =>
    obtain ⟨out, hact, rfl⟩ := Option.map_eq_some_iff.mp hs
    obtain ⟨op, k, r, v, e, cm, hprog, -, -, -, rfl⟩ := act_eq_some hact
    exact Prod.Lex.right _ (Prod.Lex.left _ _ ⟨op, k, r, hprog, rfl⟩)
  | client choice =>
    obtain ⟨out, hact, rfl⟩ := Option.map_eq_some_iff.mp hs
    obtain ⟨op, k, r, v, e, cm, hprog, -, -, -, rfl⟩ := act_eq_some hact
    exact Prod.Lex.left _ _ ⟨op, k, r, hprog, rfl⟩
  | read =>
    obtain ⟨c, hstep, rfl⟩ := Option.map_eq_some_iff.mp hs
    obtain ⟨op, k, r, hprog, -, hk⟩ := Handler.step_eq_some hstep
    exact Prod.Lex.left _ _ ⟨op, k, r, hprog, hk⟩
  | toServer =>
    obtain ⟨⟨src, dst⟩, hland, rfl⟩ := Option.map_eq_some_iff.mp hs
    obtain ⟨hsrc, hrecvs, hdst, -⟩ := length_recvs_of_land hland
    refine Prod.Lex.right _ (Prod.Lex.right _ ?_)
    simp only [pending, hrecvs, hdst]
    omega
  | toClient =>
    obtain ⟨⟨src, dst⟩, hland, rfl⟩ := Option.map_eq_some_iff.mp hs
    obtain ⟨hsrc, -, hdst, hrecvs⟩ := length_recvs_of_land hland
    refine Prod.Lex.right _ (Prod.Lex.right _ ?_)
    simp only [pending, hdst]
    omega
  | flush status =>
    simp only [step] at hs
    split at hs
    · obtain ⟨e, he, rfl⟩ := Option.map_eq_some_iff.mp hs
      unfold End.flush at he
      split at he
      next a recvs hrecvs =>
        split at he <;> cases he
        refine Prod.Lex.right _ (Prod.Lex.right _ ?_)
        simp [pending, hrecvs]
      · cases he
    · cases hs

end Nearer

/-! ### What can go on -/

section Final

variable {St α : Type} {advance : St → Event → St} {v : PeerView St} {e : End} {cm : CmState}
  {op : Op}

theorem exists_notMem (l : List UInt64) (h : l.length ≤ 1) : ∃ a, a ∉ l := by
  cases l with
  | nil => exact ⟨0, List.not_mem_nil⟩
  | cons b rest =>
    obtain rfl : rest = [] :=
      List.length_eq_zero_iff.mp (Nat.le_zero.mp (Nat.succ_le_succ_iff.mp h))
    by_cases hb : b = 0
    · exact ⟨1, by simp [hb]⟩
    · exact ⟨0, by simp [Ne.symm hb]⟩

/-- The environment can answer, and no call fails. -/
def Answers (advance : St → Event → St) (op : Op) (v : PeerView St) (e : End) (cm : CmState) :
    Prop :=
  ∃ choice r v' e' cm', choice.succeeds = true ∧
    PeerView.handler advance op v choice = some (r, v') ∧ e.after op r = some e' ∧
    cm.after op r = some cm'

/-- An operation that is not a poll can be answered. -/
theorem answers_of_proper (hop : AcceptProper op) (hpoll : ∀ cq, op ≠ .ibvPollCq cq)
    (hconnect : op = .rdmaConnect → cm.accepted = true)
    (hlet : ∀ conn, op = .letConn conn → v.vars.length ≤ 1) : Answers advance op v e cm := by
  cases op with
  | ibvPollCq cq => exact absurd rfl (hpoll cq)
  | letConn conn =>
    obtain ⟨a, ha⟩ := exists_notMem v.vars (hlet conn rfl)
    exact ⟨.addr a, a, v.place advance a conn, _, _, rfl,
      by simp [PeerView.handler, PeerView.Choice.addr?, ha], rfl, rfl⟩
  | rdmaConnect =>
    exact ⟨.ret (.ret 0 0), .ret 0 0, _, _, cm, rfl, rfl, rfl,
      by simp [CmState.after, hconnect rfl]⟩
  | readConn addr =>
    exact ⟨.conn (e.slots addr), e.slots addr, _, e, _, rfl, rfl, by simp [End.after], rfl⟩
  | ibvRegMr addr length access => exact ⟨.keys (some (0, 0)), _, _, _, _, rfl, rfl, rfl, rfl⟩
  | newPage => exact ⟨.addr 0, _, _, _, _, rfl, rfl, rfl, rfl⟩
  | cuDeviceGet _ | cuDevicePrimaryCtxRetain | cuCtxSetCurrent =>
    exact ⟨.code 0, _, _, _, _, rfl, rfl, rfl, rfl⟩
  | writePage _ _ | observe _ => exact ⟨.go, _, _, _, _, rfl, rfl, rfl, rfl⟩
  | ibvQueryQp | ibvModifyQp _ | rdmaAccept | rdmaDisconnect | ibvPostRecv _ | ibvPostSend _ =>
    exact ⟨.ret (.ret 0 0), _, _, _, _, rfl, rfl, rfl, rfl⟩
  | _ => exact hop.elim

/-- So can a poll of a queue that has a completion. -/
theorem answers_of_poll {cq : Cq} (hcq : e.cq cq ≠ []) :
    Answers advance (.ibvPollCq cq) v e cm := by
  obtain ⟨wc, rest, hcons⟩ := List.exists_cons_of_ne_nil hcq
  refine ⟨.polled (.entry wc), .entry wc, v.polled advance cq (.entry wc), ?_⟩
  cases cq with
  | send => exact ⟨{ e with sendCq := rest }, cm, rfl, rfl, by simp_all [End.after, End.cq], rfl⟩
  | recv => exact ⟨{ e with recvCq := rest }, cm, rfl, rfl, by simp_all [End.after, End.cq], rfl⟩

end Final

section Ends

variable {bufs : List GPUMemBuffer} {s : Handshake}

theorem not_final_server {op : Op} {k : op.Ans → Task (Except TransportErrors AcceptResult)}
    (hprog : s.server.prog = .vis op k)
    (h : Answers AcceptStage.advance op s.server.world s.serverEnd s.cm) :
    ¬ Final step succeeds s := by
  obtain ⟨choice, r, v', e', cm', hc, hv, he, hcm⟩ := h
  intro hf
  have hnone := hf (.server choice) hc
  simp [step, act, hprog, hv, he, hcm] at hnone

theorem not_final_client {op : Op} {k : op.Ans → Task (Except TransportErrors ConnectResult)}
    (hprog : s.client.prog = .vis op k)
    (h : Answers ConnectStage.advance op s.client.world s.clientEnd s.cm) :
    ¬ Final step succeeds s := by
  obtain ⟨choice, r, v', e', cm', hc, hv, he, hcm⟩ := h
  intro hf
  have hnone := hf (.client choice) hc
  simp [step, act, hprog, hv, he, hcm] at hnone

/-- A server that cannot go on has returned or waits. -/
theorem server_of_final (h : Running bufs s) (hf : Final step succeeds s) :
    (∃ r, s.server.prog = .ret r) ∨ s.ServerBlocked := by
  cases hprog : s.server.prog with
  | ret r => exact .inl ⟨r, rfl⟩
  | vis op k =>
    have hserver := h.server
    rw [hprog] at hserver
    obtain ⟨hproper, hrule, -⟩ := hserver.head
    by_cases hpoll : ∃ cq, op = .ibvPollCq cq
    · obtain ⟨cq, rfl⟩ := hpoll
      refine .inr ⟨cq, by rw [hprog]; rfl, ?_⟩
      by_contra hcq
      exact not_final_server hprog (answers_of_poll hcq) hf
    · refine absurd hf (not_final_server hprog (answers_of_proper hproper ?_ ?_ ?_))
      · exact fun cq hcq => hpoll ⟨cq, hcq⟩
      · rintro rfl
        exact hrule.elim
      · rintro conn rfl
        have hvars := h.serverVars
        rcases hrule with hstage | ⟨a, -, -, hstage, -⟩ <;> rw [hstage] at hvars
        · exact hvars.trans (Nat.zero_le 1)
        · exact hvars

/-- By then it has accepted the connection. -/
theorem accepted_of_final (h : Running bufs s) (hf : Final step succeeds s) :
    s.cm.accepted = true := by
  refine h.up ?_
  rcases server_of_final h hf with ⟨r, hr⟩ | ⟨cq, hop, -⟩
  · have hends := h.server
    rw [hr] at hends
    obtain ⟨out, rfl⟩ | ⟨-, own, peer, bytes, hstage⟩ := hends.1
    · obtain ⟨regs, -, -, hdone⟩ := h.consistent.accepted hr
      rw [hdone]
      rfl
    · rw [hstage]
      rfl
  · have hserver := h.server
    cases hprog : s.server.prog with
    | ret r => rw [hprog] at hop; cases hop
    | vis op k =>
      rw [hprog] at hop hserver
      cases hop
      have hrule : AcceptRule bufs (.ibvPollCq cq) s.server.world := hserver.head.2.1
      cases cq with
      | recv =>
        obtain ⟨a, hstage⟩ := hrule
        rw [hstage]
        rfl
      | send =>
        rcases hrule with ⟨a, own, hstage⟩ | ⟨own, peer, bytes, hstage⟩ <;> rw [hstage] <;> rfl

/-- **What the client is told is the list.** -/
theorem not_garbled (h : Running bufs s) : ¬ Garbled s.client.world.stage := by
  intro hgarbled
  have htold := h.told
  have hin := h.consistent.clientSide.recvs
  cases hstage : s.client.world.stage with
  | notified own peer wc =>
    rw [hstage] at hgarbled htold
    exact hgarbled htold.2
  | read own peer wc page =>
    rw [hstage] at hgarbled hin
    obtain ⟨bytes, hoffer, -⟩ := id hin.2.2
    obtain ⟨hfits, cs, rfl, -⟩ := (h.consistent.serverSide.offer hoffer).1
    obtain ⟨hle, hslice⟩ := hin.2.2.slice_eq hoffer hfits
    refine hgarbled hle cs ?_
    rw [hslice]
    exact Connections.deserialize_serialize hfits
  | _ =>
    rw [hstage] at hgarbled
    exact hgarbled

theorem connectProper_cases {op : Op} {v : ConnectView} (h : ConnectProper op v) :
    AcceptProper op ∨ Garbled v.stage ∨ ∃ buf, op = .readPage buf := by
  cases op with
  | panic msg => exact .inr (.inl h)
  | readPage buf => exact .inr (.inr ⟨buf, rfl⟩)
  | _ => first | exact .inl h | exact .inl trivial

/-- A client that cannot go on has returned or waits. -/
theorem client_of_final (h : Running bufs s) (hf : Final step succeeds s) :
    (∃ r, s.client.prog = .ret r) ∨ s.ClientBlocked := by
  cases hprog : s.client.prog with
  | ret r => exact .inl ⟨r, rfl⟩
  | vis op k =>
    have hclient := h.client
    rw [hprog] at hclient
    obtain ⟨hproper, hrule⟩ := hclient.head
    by_cases hpoll : ∃ cq, op = .ibvPollCq cq
    · obtain ⟨cq, rfl⟩ := hpoll
      refine .inr ⟨cq, by rw [hprog]; rfl, ?_⟩
      by_contra hcq
      exact not_final_client hprog (answers_of_poll hcq) hf
    · rcases connectProper_cases hproper with hproper | hgarbled | ⟨buf, rfl⟩
      · refine absurd hf (not_final_client hprog (answers_of_proper hproper ?_ ?_ ?_))
        · exact fun cq hcq => hpoll ⟨cq, hcq⟩
        · exact fun _ => accepted_of_final h hf
        · rintro conn rfl
          have hvars := h.clientVars
          rcases hrule with hstage | ⟨a, -, -, hstage, -⟩ <;> rw [hstage] at hvars
          · exact hvars.trans (Nat.zero_le 1)
          · exact hvars
      · exact absurd hgarbled (not_garbled h)
      · have hnone := hf .read rfl
        simp [step, Handler.step, hprog, ConnectView.handler, PeerView.handler,
          PeerView.Choice.page?] at hnone

/-! ### Where a run cannot go on -/

theorem not_inFlight_of_final (hf : Final step succeeds s) : ¬ s.InFlight := by
  rintro (hland | hland | ⟨status, hflush⟩)
  · rw [hf .toServer rfl] at hland
    cases hland
  · rw [hf .toClient rfl] at hland
    cases hland
  · rw [hf (.flush status) rfl] at hflush
    cases hflush

/-- A server that has disconnected has returned an error. -/
theorem server_of_disconnected (h : Running bufs s) (hdown : s.cm.disconnected = true) :
    ∃ e, s.server.prog = .ret (.error e) := by
  have hclosed : s.server.world.closed = true := h.consistent.closed.trans hdown
  have hserver := h.server
  cases hprog : s.server.prog with
  | vis op k =>
    rw [hprog] at hserver
    rw [hserver.head.2.2] at hclosed
    cases hclosed
  | ret r =>
    cases r with
    | error e => exact ⟨e, rfl⟩
    | ok out =>
      rw [hprog] at hserver
      rw [hserver.2 out rfl] at hclosed
      cases hclosed

/-- While the server waits, the list has not landed. -/
theorem landed_of_serverBlocked (h : Running bufs s) (hb : s.ServerBlocked) :
    s.clientEnd.landed < 2 := by
  obtain ⟨cq, hop, hempty⟩ := hb
  have hserver := h.server
  have hsends := h.consistent.serverSide.sends
  cases hprog : s.server.prog with
  | ret r => rw [hprog] at hop; cases hop
  | vis op k =>
    rw [hprog] at hop hserver
    cases hop
    have hrule : AcceptRule bufs (.ibvPollCq cq) s.server.world := hserver.head.2.1
    cases cq with
    | recv =>
      obtain ⟨a, hstage⟩ := hrule
      rw [hstage] at hsends
      exact lt_of_le_of_lt hsends.landed_le Nat.two_pos
    | send =>
      have hreaped := hsends.reaped
      have hempty : s.serverEnd.sendCq = [] := hempty
      rw [hempty, List.length_nil, Nat.zero_add] at hreaped
      rcases hrule with ⟨a, own, hstage⟩ | ⟨own, peer, bytes, hstage⟩ <;> rw [hstage] at hreaped <;>
        simp only [AcceptStage.reaped] at hreaped <;> omega

/-- A client that has returned has been told the list, or the server has disconnected. -/
theorem client_of_returned (h : Running bufs s) {r : Except TransportErrors ConnectResult}
    (hr : s.client.prog = .ret r) :
    ((∃ out, r = .ok out) ∧ s.clientEnd.landed = 2) ∨ s.cm.disconnected = true := by
  have hends := h.client
  rw [hr] at hends
  rcases hends with ⟨out, rfl⟩ | ⟨own, hflushed⟩ | hgarbled
  · obtain ⟨wc, page, cs, hle, hread, -⟩ := h.consistent.connected hr
    have htold := h.told
    rw [hread] at htold
    exact .inl ⟨⟨out, rfl⟩, htold⟩
  · exact .inr (h.flushed own hflushed)
  · exact absurd hgarbled (not_garbled h)

/-- A server that has returned `Ok` has sent both messages, and heard the client's. -/
theorem landed_of_ok (h : Running bufs s) {out : AcceptResult}
    (hout : s.server.prog = .ret (.ok out)) :
    s.clientEnd.landed = 2 ∧ s.serverEnd.landed = 1 := by
  obtain ⟨regs, -, -, hdone⟩ := h.consistent.accepted hout
  have hsends := h.consistent.serverSide.sends
  have hin := h.consistent.serverSide.recvs
  rw [hdone] at hsends hin
  exact ⟨hsends.landed_eq rfl rfl, hin.2.2.1⟩

/-- **Both sides have returned** where no step is left. -/
theorem returned_of_final (h : Running bufs s) (hf : Final step succeeds s) :
    (∃ r, s.server.prog = .ret r) ∧ ∃ r, s.client.prog = .ret r := by
  have hflight := not_inFlight_of_final hf
  rcases server_of_final h hf with hserver | hserver <;>
    rcases client_of_final h hf with hclient | hclient
  · exact ⟨hserver, hclient⟩
  · -- The client waits for a message that has landed, or is flushed.
    obtain ⟨r, hr⟩ := hserver
    exfalso
    cases r with
    | ok out =>
      obtain ⟨htwo, hone⟩ := landed_of_ok h hr
      rcases h.consistent.clientBlocked hclient with ⟨hzero, -⟩ | ⟨-, a, hrecvs⟩
      · omega
      · obtain ⟨-, -, ⟨hlanded, -⟩ | ⟨hlanded, -⟩⟩ := h.consistent.clientSide.recvs.recv hrecvs <;>
          omega
    | error e =>
      have hprog := h.consistent.server
      rw [hr] at hprog
      have hdown := h.consistent.closed.symm.trans (hprog.2 e rfl)
      exact hflight (h.consistent.inFlight_of_disconnected hdown hclient)
  · -- The server waits for its list to land, or has disconnected.
    obtain ⟨r, hr⟩ := hclient
    exfalso
    rcases client_of_returned h hr with ⟨-, htwo⟩ | hdown
    · have hlt := landed_of_serverBlocked h hserver
      omega
    · obtain ⟨e, he⟩ := server_of_disconnected h hdown
      obtain ⟨cq, hop, -⟩ := hserver
      rw [he] at hop
      cases hop
  · exact absurd ⟨hserver, hclient, hflight⟩ h.consistent.not_blocked

/-- Both sides have returned: errors if the list is too long, and otherwise results that agree. -/
def Finished (bufs : List GPUMemBuffer) (s : Handshake) : Prop :=
  (TooLong bufs ∧ ∃ e e', s.server.prog = .ret (.error e) ∧ s.client.prog = .ret (.error e')) ∨
    (¬ TooLong bufs ∧ ∃ out out', s.server.prog = .ret (.ok out) ∧ s.client.prog = .ret (.ok out') ∧
      Agree bufs out out')

theorem finished_of_final (h : Running bufs s) (hf : Final step succeeds s) : Finished bufs s := by
  obtain ⟨⟨r, hr⟩, r', hr'⟩ := returned_of_final h hf
  by_cases hlong : TooLong bufs
  · obtain ⟨hserver, hclient, -⟩ := h.consistent.of_tooLong hlong
    obtain ⟨e, rfl⟩ := hserver r hr
    obtain ⟨e', rfl⟩ := hclient r' hr'
    exact .inl ⟨hlong, e, e', hr, hr'⟩
  · have hends := h.server
    rw [hr] at hends
    obtain ⟨out, rfl⟩ := hends.1.resolve_right fun hstop => hlong hstop.1
    rcases client_of_returned h hr' with ⟨⟨out', rfl⟩, -⟩ | hdown
    · exact .inr ⟨hlong, out, out', hr, hr', h.consistent.agree hr hr'⟩
    · obtain ⟨e, he⟩ := server_of_disconnected h hdown
      rw [he] at hr
      cases hr

/-- From wherever the invariant holds, every run finishes. -/
theorem Running.leads (h : Running bufs s) : Leads step succeeds (Finished bufs) s := by
  refine Leads.of_wellFounded (I := Running bufs) wellFounded_nearer ?_ ?_ h
  · intro s l s' hs hl hstep
    exact ⟨running_step hs hl hstep, nearer_step hstep⟩
  · intro s hs hf
    exact finished_of_final hs hf

end Ends

end Handshake

end RdmaTransport
