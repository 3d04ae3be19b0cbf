import RdmaTransport.Handshake.Completes

/-!
# A handshake in which no call fails

What holds of both sides and of the connection between them as long as no call fails. The messages
land with success, so every completion is one of a request that has succeeded, except for the
receives that are flushed once the server has disconnected; and the second receive of the client
completes with the list and nothing else.

## Main definitions

* `succeeds` — no call fails
* `Delivered` — what the completion of the client's second receive says
* `Running` — the invariant

## Main results

* `running_step` — every step keeps it
-/

namespace RdmaTransport

open Interaction

/-! ### Stages -/

namespace AcceptStage

/-- How many variables have been placed. -/
def placed : AcceptStage → ℕ
  | start => 0
  | slot _ | listening _ | accepted _ | heard _ => 1
  | _ => 2

/-- The connection has been accepted. -/
def isUp : AcceptStage → Bool
  | start | slot _ | listening _ => false
  | _ => true

theorem placed_le_advance (st : AcceptStage) (ev : Event) : st.placed ≤ (st.advance ev).placed := by
  cases st <;> cases ev <;> simp [advance, placed]

/-- Only an accepted connection is up. -/
theorem isUp_advance {st : AcceptStage} {ev : Event} (h : (st.advance ev).isUp = true) :
    st.isUp = true ∨ ev = .linked := by
  cases st <;> cases ev <;> simp_all [advance, isUp]

end AcceptStage

namespace ConnectStage

/-- How many variables have been placed. -/
def placed : ConnectStage → ℕ
  | start => 0
  | slot _ | listening _ | connected _ => 1
  | _ => 2

theorem placed_le_advance (st : ConnectStage) (ev : Event) :
    st.placed ≤ (st.advance ev).placed := by
  cases st <;> cases ev <;> simp only [advance] <;> (try split) <;> simp [placed]

/-- A client is flushed by a completion that is an error. -/
theorem eq_of_advance_flushed {st : ConnectStage} {ev : Event} {own : Connection}
    (h : st.advance ev = .flushed own) : st = .flushed own ∨
      ∃ cq wc, ev = .polled cq wc ∧ wc.status ≠ ibvWcSuccess ∧
        ((∃ a own, st = .told a own) ∨ ∃ own peer, st = .expecting own peer) := by
  cases st with
  | told a own' =>
    cases ev with
    | polled cq wc =>
      simp only [advance] at h
      split at h
      · cases h
      next hwc => exact .inr ⟨cq, wc, rfl, hwc, .inl ⟨a, own', rfl⟩⟩
    | _ => cases h
  | expecting own' peer =>
    cases ev with
    | polled cq wc =>
      simp only [advance] at h
      split at h
      · cases h
      next hwc => exact .inr ⟨cq, wc, rfl, hwc, .inr ⟨own', peer, rfl⟩⟩
    | _ => cases h
  | flushed own' => exact .inl h
  | _ => cases ev <;> cases h

end ConnectStage

/-- **The variables** of a peer are counted by its stage. -/
theorem length_vars_le_placed {St : Type} {advance : St → Event → St} {placed : St → ℕ}
    {v v' : PeerView St} {op : Op} {r : op.Ans} (hmoves : v.Moves advance op r v')
    (hmono : ∀ st ev, placed st ≤ placed (advance st ev))
    (hlet : ∀ conn a, op = .letConn conn →
      placed v.stage < placed (advance v.stage (.placed a conn)))
    (h : v.vars.length ≤ placed v.stage) : v'.vars.length ≤ placed v'.stage := by
  rcases hmoves.vars with hvars | ⟨conn, a, hop, -, rfl⟩
  · rw [hvars]
    rcases hmoves.stage with hstage | ⟨ev, -, hstage⟩
    · rwa [hstage]
    · rw [hstage]
      exact h.trans (hmono _ _)
  · exact Nat.succ_le_of_lt (lt_of_le_of_lt h (hlet conn a hop))

namespace Handshake

/-! ### The second receive -/

/-- What the completion of the client's second receive says. -/
def Delivered (st : ConnectStage) (e : End) : Prop :=
  match st with
  | .expecting _ _ => ∀ wc ∈ e.recvCq, wc.status = ibvWcSuccess →
      e.landed = 2 ∧ wc.opcode = ibvWcRecvRdmaWithImm
  | .notified _ _ wc => e.landed = 2 ∧ wc.opcode = ibvWcRecvRdmaWithImm
  | .read _ _ _ _ => e.landed = 2
  | _ => True

section Delivered

variable {st : AcceptStage} {v v' : ConnectView} {e e' : End} {op : Op} {r : op.Ans}

theorem Delivered.mono {cs : ConnectStage} (h : Delivered cs e)
    (hcq : ∀ wc ∈ e'.recvCq, wc ∈ e.recvCq) (hlanded : e'.landed = e.landed) : Delivered cs e' := by
  cases cs with
  | expecting own peer =>
    intro wc hwc hstatus
    rw [hlanded]
    exact h wc (hcq wc hwc) hstatus
  | notified own peer wc => exact ⟨hlanded.trans h.1, h.2⟩
  | read own peer wc page => exact hlanded.trans h
  | _ => trivial

/-- **One operation** of the client. -/
theorem delivered_step (hrule : ConnectRule op v) (hin : ClientIn st v.stage e)
    (h : Delivered v.stage e) (hmoves : v.Moves ConnectStage.advance op r v')
    (he : e.after op r = some e') : Delivered v'.stage e' := by
  have htakes := End.takes_of_after he
  have hcq : ∀ wc ∈ e'.recvCq, wc ∈ e.recvCq := htakes.cq .recv
  rcases hmoves.stage with hstage | ⟨ev, hemits, hstage⟩
  · rw [hstage]
    exact h.mono hcq htakes.landed
  rw [hstage]
  cases hst : v.stage with
  | knows own peer =>
    rw [hst] at hin
    cases ev with
    | receiving a =>
      intro wc hwc
      have hmem := hcq wc hwc
      rw [hin.2.1] at hmem
      cases hmem
    | _ => trivial
  | expecting own peer =>
    rw [hst] at h
    cases ev with
    | polled cq wc =>
      obtain ⟨rfl, hmem⟩ := End.mem_of_emits he hemits
      cases cq with
      | send =>
        obtain ⟨a, own', hsent⟩ := hrule
        rw [hst] at hsent
        cases hsent
      | recv =>
        simp only [ConnectStage.advance]
        split
        next hwc =>
          obtain ⟨hlanded, hop⟩ := h wc hmem hwc
          exact ⟨htakes.landed.trans hlanded, hop⟩
        · trivial
    | _ => exact h.mono hcq htakes.landed
  | notified own peer wc =>
    rw [hst] at h
    cases ev with
    | saw page => exact htakes.landed.trans h.1
    | _ => exact h.mono hcq htakes.landed
  | read own peer wc page =>
    rw [hst] at h
    cases ev <;> exact h.mono hcq htakes.landed
  | told a own =>
    cases ev with
    | polled cq wc =>
      simp only [ConnectStage.advance]
      split <;> trivial
    | _ => trivial
  | _ => cases ev <;> trivial

/-- A message lands at the client. -/
theorem delivered_land {cs : ConnectStage} {a : UInt64} {recvs : List UInt64} {wc : IbvWc}
    (hin : ClientIn st cs e) (hrecvs : e.recvs = a :: recvs)
    (hop : e.landed = 1 → wc.opcode = ibvWcRecvRdmaWithImm)
    (hcq : e'.recvCq = e.recvCq ++ [wc]) (hlanded : e'.landed = e.landed + 1) :
    Delivered cs e' := by
  obtain ⟨-, hnil, -⟩ := hin.recv hrecvs
  cases cs with
  | expecting own peer =>
    obtain ⟨-, ⟨_, -, -, hone⟩ | ⟨hempty, -⟩⟩ := hin
    · intro wc' hwc' _
      rw [hcq, hnil, List.nil_append, List.mem_singleton] at hwc'
      subst hwc'
      exact ⟨by rw [hlanded, hone], hop hone⟩
    · rw [hrecvs] at hempty
      cases hempty
  | notified _ _ _ | read _ _ _ _ =>
    have hempty := hin.1
    rw [hrecvs] at hempty
    cases hempty
  | _ => trivial

/-- A receive of the client is flushed. -/
theorem delivered_flush {cs : ConnectStage} {wc : IbvWc} (h : Delivered cs e)
    (hstatus : wc.status ≠ ibvWcSuccess) (hcq : e'.recvCq = e.recvCq ++ [wc])
    (hlanded : e'.landed = e.landed) : Delivered cs e' := by
  cases cs with
  | expecting own peer =>
    intro wc' hwc' hok
    rw [hcq] at hwc'
    rcases List.mem_append.mp hwc' with hwc' | hwc'
    · rw [hlanded]
      exact h wc' hwc' hok
    · rw [List.mem_singleton.mp hwc'] at hok
      exact absurd hok hstatus
  | notified own peer wc' => exact ⟨hlanded.trans h.1, h.2⟩
  | read own peer wc' page => exact hlanded.trans h
  | _ => trivial

end Delivered

/-! ### The invariant -/

/-- No call fails, and a poll finds a completion. -/
def succeeds (_ : Handshake) : Label → Bool
  | .server choice | .client choice => choice.succeeds
  | _ => true

/-- What holds as long as no call fails. -/
structure Running (bufs : List GPUMemBuffer) (s : Handshake) : Prop where
  /-- Both sides are in order. -/
  consistent : Consistent bufs s
  /-- The server gets on. -/
  server : (Handler.within AcceptView.handler (PeerView.goes fun _ => true)).Always
    (fun op v => AcceptProper op ∧ AcceptRule bufs op v ∧ v.closed = false)
    (fun r v => AcceptEnds bufs r v ∧ ∀ out, r = .ok out → v.closed = false)
    s.server.prog s.server.world
  /-- The client gets on. -/
  client : (Handler.within ConnectView.handler (PeerView.goes sendsClean)).Always
    (fun op v => ConnectProper op v ∧ ConnectRule op v) ConnectEnds
    s.client.prog s.client.world
  /-- The server has placed two variables at most. -/
  serverVars : s.server.world.vars.length ≤ s.server.world.stage.placed
  /-- So has the client. -/
  clientVars : s.client.world.vars.length ≤ s.client.world.stage.placed
  /-- A server that is up has accepted the connection. -/
  up : s.server.world.stage.isUp = true → s.cm.accepted = true
  /-- Nothing has failed at the server. -/
  serverCq : ∀ cq, ∀ wc ∈ s.serverEnd.cq cq, wc.status = ibvWcSuccess
  /-- Nothing that the client has sent has failed. -/
  sendCq : ∀ wc ∈ s.clientEnd.sendCq, wc.status = ibvWcSuccess
  /-- Its receives are flushed once the server has disconnected. -/
  recvCq : ∀ wc ∈ s.clientEnd.recvCq, wc.status ≠ ibvWcSuccess → s.cm.disconnected = true
  /-- So is the client. -/
  flushed : ∀ own, s.client.world.stage = .flushed own → s.cm.disconnected = true
  /-- Its second receive completes with the list. -/
  told : Delivered s.client.world.stage s.clientEnd

section Steps

variable {bufs : List GPUMemBuffer} {s s' : Handshake}

/-- A completion that is polled has been in the queue, so an environment in which no call fails goes
on as long as the queues are clean. -/
theorem goes_of_succeeds {St : Type} {advance : St → Event → St} (clean : Cq → Bool)
    {v v' : PeerView St} {op : Op} {r : op.Ans} {choice : PeerView.Choice} {e e' : End}
    (hc : choice.succeeds = true) (hv : PeerView.handler advance op v choice = some (r, v'))
    (he : e.after op r = some e')
    (hclean : ∀ cq, clean cq = true → ∀ wc ∈ e.cq cq, wc.status = ibvWcSuccess) :
    v.goes clean op choice = true := by
  unfold PeerView.goes
  rw [hc, Bool.true_and]
  split
  next cq wc =>
    cases hv
    obtain ⟨-, hmem⟩ := End.mem_of_emits he ⟨wc, rfl, rfl⟩
    cases hcq : clean cq with
    | false => rfl
    | true => simp [hclean cq hcq wc hmem]
  · rfl

theorem running_init (serverOrdinal clientOrdinal : Int) (clientBufs : List GPUMemBuffer)
    (serverSlots clientSlots : UInt64 → Connection) (serverPage clientPage : Page) :
    Running bufs (.init serverOrdinal bufs clientOrdinal clientBufs
      (.init serverSlots serverPage) (.init clientSlots clientPage)) where
  consistent := consistent_init serverOrdinal clientOrdinal clientBufs serverSlots clientSlots
    serverPage clientPage
  server := Server.always_acceptTask_completes serverOrdinal bufs
  client := Client.always_connect_completes clientOrdinal clientBufs
  serverVars := le_refl _
  clientVars := le_refl _
  up := by simp [init, PeerView.init, AcceptStage.isUp]
  serverCq := by
    intro cq wc hwc
    cases cq <;> cases hwc
  sendCq := by simp [init, End.init]
  recvCq := by simp [init, End.init]
  flushed := by simp [init, PeerView.init]
  told := trivial

theorem running_server {choice : PeerView.Choice} (h : Running bufs s)
    (hc : choice.succeeds = true) (hs : s.step (.server choice) = some s') : Running bufs s' := by
  have hconsistent := consistent_server h.consistent hs
  obtain ⟨out, hact, rfl⟩ := Option.map_eq_some_iff.mp hs
  obtain ⟨op, k, r, v, e, cm, hprog, hv, he, hcm, rfl⟩ := act_eq_some hact
  have hserver := h.server
  rw [hprog] at hserver
  have hrule := hserver.head.2.1
  have hmoves := moves_of_handler hv
  have htakes := End.takes_of_after he
  obtain ⟨haccepted, hdisconnected⟩ := CmState.mono_of_after hcm
  have hgo := goes_of_succeeds (fun _ => true) hc hv he fun cq _ => h.serverCq cq
  refine ⟨hconsistent, hserver.2 choice r v (Handler.within_eq_some.mpr ⟨hgo, hv⟩), h.client, ?_,
    h.clientVars, ?_, fun cq wc hwc => h.serverCq cq wc (htakes.cq cq wc hwc), h.sendCq,
    fun wc hwc hne => hdisconnected (h.recvCq wc hwc hne),
    fun own hown => hdisconnected (h.flushed own hown), h.told⟩
  · refine length_vars_le_placed hmoves AcceptStage.placed_le_advance ?_ h.serverVars
    rintro conn a rfl
    rcases hrule with hstage | ⟨b, -, -, hstage, -⟩ <;>
      simp [hstage, AcceptStage.advance, AcceptStage.placed]
  · intro hup
    rcases hmoves.stage with hstage | ⟨ev, hemits, hstage⟩ <;> rw [hstage] at hup
    · exact haccepted (h.up hup)
    · rcases AcceptStage.isUp_advance hup with hup | rfl
      · exact haccepted (h.up hup)
      · rcases eq_of_emits_linked hemits with rfl | rfl
        · cases hcm
          simp [hemits.1]
        · exact hrule.elim

/-- What an operation of the client leaves of the invariant. -/
theorem running_client {choice : PeerView.Choice} (h : Running bufs s)
    (hc : choice.succeeds = true) (hs : s.step (.client choice) = some s') : Running bufs s' := by
  have hconsistent := consistent_client h.consistent hs
  obtain ⟨out, hact, rfl⟩ := Option.map_eq_some_iff.mp hs
  obtain ⟨op, k, r, v, e, cm, hprog, hv, he, hcm, rfl⟩ := act_eq_some hact
  have hclient := h.client
  rw [hprog] at hclient
  have hrule := hclient.head.2
  obtain ⟨rfl, -⟩ := clientStep hrule h.consistent.clientSide hv he hcm
  have hmoves := moves_of_handler hv
  have htakes := End.takes_of_after he
  have hgo := goes_of_succeeds sendsClean hc hv he fun cq hcq wc hwc => by
    cases cq with
    | send => exact h.sendCq wc hwc
    | recv => cases hcq
  refine ⟨hconsistent, h.server, hclient.2 choice r v (Handler.within_eq_some.mpr ⟨hgo, hv⟩),
    h.serverVars, ?_, h.up, h.serverCq, fun wc hwc => h.sendCq wc (htakes.cq .send wc hwc),
    fun wc hwc => h.recvCq wc (htakes.cq .recv wc hwc), ?_,
    delivered_step hrule h.consistent.clientSide.recvs h.told hmoves he⟩
  · refine length_vars_le_placed hmoves ConnectStage.placed_le_advance ?_ h.clientVars
    rintro conn a rfl
    rcases hrule with hstage | ⟨b, -, -, hstage, -⟩ <;>
      simp [hstage, ConnectStage.advance, ConnectStage.placed]
  · intro own hown
    rcases hmoves.stage with hstage | ⟨ev, hemits, hstage⟩
    · exact h.flushed own (hstage.symm.trans hown)
    · rcases ConnectStage.eq_of_advance_flushed (hstage.symm.trans hown) with
        hown | ⟨cq, wc, rfl, hwc, hstages⟩
      · exact h.flushed own hown
      · obtain ⟨rfl, hmem⟩ := End.mem_of_emits he hemits
        cases cq with
        | recv => exact h.recvCq wc hmem hwc
        | send =>
          obtain ⟨a, own', hsent⟩ := hrule
          rw [hsent] at hstages
          simp at hstages

theorem running_read (h : Running bufs s) (hs : s.step .read = some s') : Running bufs s' := by
  have hconsistent := consistent_read h.consistent hs
  obtain ⟨⟨v, p⟩, hstep, rfl⟩ := Option.map_eq_some_iff.mp hs
  obtain ⟨op, k, r, hprog, hv, hk⟩ := Handler.step_eq_some hstep
  have hclient := h.client
  rw [hprog] at hclient
  cases op with
  | readPage buf =>
    obtain ⟨own, peer, wc, hstage⟩ := hclient.head.2
    have hmoves := moves_of_handler hv
    have hgoes : PeerView.goes sendsClean (.readPage buf) s.client.world
        (.page s.clientEnd.page) = true := rfl
    have hclient' := hclient.2 _ r v (Handler.within_eq_some.mpr ⟨hgoes, hv⟩)
    have htold := h.told
    rw [hstage] at htold
    have hread : v.stage = .read own peer wc s.clientEnd.page := by
      cases hv
      change s.client.world.stage.advance _ = _
      rw [hstage]
      rfl
    refine ⟨hconsistent, h.server, hk ▸ hclient', h.serverVars, ?_, h.up, h.serverCq, h.sendCq,
      h.recvCq, ?_, ?_⟩
    · refine length_vars_le_placed hmoves ConnectStage.placed_le_advance ?_ h.clientVars
      intro _ _ hop
      cases hop
    · intro own' hown
      rw [hread] at hown
      cases hown
    · change Delivered v.stage s.clientEnd
      rw [hread]
      exact htold.1
  | _ => cases hv

/-- A message lands at the server. -/
theorem running_toServer (h : Running bufs s) (hs : s.step .toServer = some s') :
    Running bufs s' := by
  have hconsistent := consistent_toServer h.consistent hs
  obtain ⟨⟨src, dst⟩, hland, rfl⟩ := Option.map_eq_some_iff.mp hs
  obtain ⟨msg, outbox, a, recvs, hout, hrecvs, hsrc, hdst⟩ := land_eq_some hland
  simp only at hsrc
  subst hsrc
  obtain ⟨hsendCq, wc, hwc, hrecvCq⟩ : dst.sendCq = s.serverEnd.sendCq ∧
      ∃ wc, wc.status = ibvWcSuccess ∧ dst.recvCq = s.serverEnd.recvCq ++ [wc] := by
    rcases hdst with ⟨conn, -, rfl⟩ | ⟨peer, imm, -, rfl⟩
    · exact ⟨rfl, _, rfl, rfl⟩
    · exact ⟨rfl, _, rfl, rfl⟩
  refine ⟨hconsistent, h.server, h.client, h.serverVars, h.clientVars, h.up, ?_, ?_, h.recvCq,
    h.flushed, ?_⟩
  · intro cq wc' hmem
    cases cq with
    | send =>
      have hmem : wc' ∈ dst.sendCq := hmem
      exact h.serverCq .send wc' (by rwa [hsendCq] at hmem)
    | recv =>
      have hmem : wc' ∈ dst.recvCq := hmem
      rw [hrecvCq] at hmem
      rcases List.mem_append.mp hmem with hmem | hmem
      · exact h.serverCq .recv wc' hmem
      · rw [List.mem_singleton.mp hmem]
        exact hwc
  · intro wc' hmem
    rcases List.mem_append.mp hmem with hmem | hmem
    · exact h.sendCq wc' hmem
    · rw [List.mem_singleton.mp hmem]
  · exact h.told.mono (fun _ => id) rfl

/-- A message lands at the client. -/
theorem running_toClient (h : Running bufs s) (hs : s.step .toClient = some s') :
    Running bufs s' := by
  have hconsistent := consistent_toClient h.consistent hs
  obtain ⟨⟨src, dst⟩, hland, rfl⟩ := Option.map_eq_some_iff.mp hs
  obtain ⟨msg, outbox, a, recvs, hout, hrecvs, hsrc, hdst⟩ := land_eq_some hland
  have hget := h.consistent.serverSide.sends.oldest hout
  simp only at hsrc
  subst hsrc
  obtain ⟨hsendCq, hlanded, wc, hwc, hop, hrecvCq⟩ : dst.sendCq = s.clientEnd.sendCq ∧
      dst.landed = s.clientEnd.landed + 1 ∧ ∃ wc, wc.status = ibvWcSuccess ∧
        (s.clientEnd.landed = 1 → wc.opcode = ibvWcRecvRdmaWithImm) ∧
        dst.recvCq = s.clientEnd.recvCq ++ [wc] := by
    rcases hdst with ⟨conn, rfl, rfl⟩ | ⟨peer, imm, rfl, rfl⟩
    · -- The second message is the list.
      refine ⟨rfl, rfl, _, rfl, fun hone => ?_, rfl⟩
      rw [hone] at hget
      obtain ⟨hzero, -⟩ | ⟨-, _, _, -, hwrite⟩ := messages_getElem? hget
      · cases hzero
      · cases hwrite
    · exact ⟨rfl, rfl, _, rfl, fun _ => rfl, rfl⟩
  refine ⟨hconsistent, h.server, h.client, h.serverVars, h.clientVars, h.up, ?_, ?_, ?_, h.flushed,
    delivered_land h.consistent.clientSide.recvs hrecvs hop hrecvCq hlanded⟩
  · intro cq wc' hmem
    cases cq with
    | recv => exact h.serverCq .recv wc' hmem
    | send =>
      rcases List.mem_append.mp hmem with hmem | hmem
      · exact h.serverCq .send wc' hmem
      · rw [List.mem_singleton.mp hmem]
  · intro wc' hmem
    have hmem : wc' ∈ dst.sendCq := hmem
    rw [hsendCq] at hmem
    exact h.sendCq wc' hmem
  · intro wc' hmem hne
    have hmem : wc' ∈ dst.recvCq := hmem
    rw [hrecvCq] at hmem
    rcases List.mem_append.mp hmem with hmem | hmem
    · exact h.recvCq wc' hmem hne
    · rw [List.mem_singleton.mp hmem] at hne
      exact absurd hwc hne

/-- A receive of the client is flushed. -/
theorem running_flush {status : UInt32} (h : Running bufs s)
    (hs : s.step (.flush status) = some s') : Running bufs s' := by
  have hconsistent := consistent_flush h.consistent hs
  simp only [step] at hs
  split at hs
  next hdisconnected =>
    obtain ⟨e, he, rfl⟩ := Option.map_eq_some_iff.mp hs
    unfold End.flush at he
    split at he
    · split at he
      · cases he
      next hstatus =>
        cases he
        exact ⟨hconsistent, h.server, h.client, h.serverVars, h.clientVars, h.up, h.serverCq,
          h.sendCq, fun _ _ _ => hdisconnected, h.flushed, delivered_flush h.told hstatus rfl rfl⟩
    · cases he
  · cases hs

/-- **One step** in which no call fails keeps the invariant. -/
theorem running_step {l : Label} (h : Running bufs s) (hl : s.succeeds l = true)
    (hs : s.step l = some s') : Running bufs s' := by
  cases l with
  | server choice => exact running_server h hl hs
  | client choice => exact running_client h hl hs
  | read => exact running_read h hs
  | toServer => exact running_toServer h hs
  | toClient => exact running_toClient h hs
  | flush status => exact running_flush h hs

end Steps

end Handshake

end RdmaTransport
