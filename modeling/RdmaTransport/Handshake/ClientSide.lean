import RdmaTransport.Handshake.ServerSide

/-!
# The client's side of the handshake

As on the server's side, what has been posted and polled determines the outbox and the send queue.
The client has two receives, one after the other: the first is consumed by the server's page, the
second by the list of its buffers. Either may be flushed instead.

## Main definitions

* `ClientSide` — the client's side

## Main results

* `clientStep`, `clientStep_read` — an operation of the client keeps its side in order
* `ClientSide.land_send`, `ClientSide.land_write`, `ClientSide.flush` — so does what lands there
-/

namespace RdmaTransport

open Interaction

namespace ConnectStage

/-- What has been posted. -/
def messages : ConnectStage → List Msg
  | sent _ own | told _ own | heard _ own | knows own _ | expecting own _ | notified own _ _
  | read own _ _ _ | flushed own => [.send own]
  | _ => []

/-- How many completions of requests have been polled. -/
def reaped : ConnectStage → ℕ
  | told _ _ | heard _ _ | knows _ _ | expecting _ _ | notified _ _ _ | read _ _ _ _
  | flushed _ => 1
  | _ => 0

/-- The variable that is sent. -/
def own? : ConnectStage → Option Connection
  | ready _ _ own | sent _ own | told _ own | heard _ own | knows own _ | expecting own _
  | notified own _ _ | read own _ _ _ | flushed own => some own
  | _ => none

/-- The connection is up. -/
def isUp : ConnectStage → Bool
  | start | slot _ | listening _ => false
  | _ => true

theorem own?_of_messages {st : ConnectStage} {own : Connection} (h : st.messages = [.send own]) :
    st.own? = some own := by
  cases st <;> simp_all [messages, own?]

theorem isUp_of_messages {st : ConnectStage} (h : st.messages ≠ []) : st.isUp = true := by
  cases st <;> simp_all [messages, isUp]

theorem messages_eq (st : ConnectStage) : st.messages = [] ∨ ∃ own, st.messages = [.send own] := by
  cases st <;> simp [messages]

end ConnectStage

namespace Handshake

/-! ### The client's side -/

/-- The server's page has landed, and is `conn`. -/
def Shown (st : AcceptStage) (e : End) (conn : Connection) : Prop :=
  e.landed = 1 ∧ st.messages.head? = some (.send conn)

/-- The first receive has completed, with the server's page in the variable at `a` or with an
error. -/
def FirstDone (st : AcceptStage) (e : End) (a : UInt64) : Prop :=
  e.recvs = [] ∧ ∃ wc, e.recvCq = [wc] ∧ (wc.status = ibvWcSuccess → Shown st e (e.slots a))

/-- The first receive is posted, or has completed. -/
def Hearing (st : AcceptStage) (e : End) (a : UInt64) : Prop :=
  (e.recvs = [a] ∧ e.recvCq = [] ∧ e.landed = 0) ∨ FirstDone st e a

/-- The list is in the page, and the completion tells its size. -/
def Told (st : AcceptStage) (wc : IbvWc) (page : Page) : Prop :=
  ∃ bytes, st.offer? = some bytes ∧ wc.immData = htonl (UInt32.ofNat bytes.length) ∧
    page.StartsWith bytes

/-- The second receive has completed, with the list or with an error. -/
def SecondDone (st : AcceptStage) (e : End) : Prop :=
  e.recvs = [] ∧ ∃ wc, e.recvCq = [wc] ∧ (wc.status = ibvWcSuccess → Told st wc e.page)

/-- The receives of the client. `st` is the stage of the server. -/
def ClientIn (st : AcceptStage) : ConnectStage → End → Prop
  | .start, e | .slot _, e => e.recvs = [] ∧ e.recvCq = [] ∧ e.landed = 0
  | .listening a, e | .connected a, e | .sent a _, e | .told a _, e => Hearing st e a
  | .ready a b own, e => a ≠ b ∧ e.slots b = own ∧ Hearing st e a
  | .heard a _, e => e.recvs = [] ∧ e.recvCq = [] ∧ Shown st e (e.slots a)
  | .knows _ peer, e => e.recvs = [] ∧ e.recvCq = [] ∧ Shown st e peer
  | .expecting _ peer, e => st.messages.head? = some (.send peer) ∧
      ((∃ a, e.recvs = [a] ∧ e.recvCq = [] ∧ e.landed = 1) ∨ SecondDone st e)
  | .notified _ peer wc, e => e.recvs = [] ∧ st.messages.head? = some (.send peer) ∧
      Told st wc e.page
  | .read _ peer wc page, e => e.recvs = [] ∧ st.messages.head? = some (.send peer) ∧
      Told st wc page
  | .flushed _, e => e.recvs = []

/-- The client's side. `st` is the stage of the server, and `landed` is how many of the client's
messages have landed. -/
structure ClientSide (v : ConnectView) (e : End) (accepted : Bool) (st : AcceptStage)
    (landed : ℕ) : Prop where
  /-- Its receives. -/
  recvs : ClientIn st v.stage e
  /-- Its messages. -/
  sends : Outgoing v.stage.messages v.stage.reaped landed e
  /-- It has the page that it tells the server about. -/
  owns : ∀ own, v.stage.own? = some own → ∃ mr buf, v.Owns own mr buf
  /-- The server has accepted before the connection is up. -/
  up : v.stage.isUp = true → accepted = true

section Client

variable {v v' : ConnectView} {e e' : End} {accepted : Bool} {cm cm' : CmState}
  {st st' : AcceptStage} {landed : ℕ}

theorem Hearing.congr {a : UInt64} (h : Hearing st e a) (hrecvs : e'.recvs = e.recvs)
    (hcq : e'.recvCq = e.recvCq) (hlanded : e'.landed = e.landed)
    (hslot : e'.slots a = e.slots a) : Hearing st e' a := by
  simpa only [Hearing, FirstDone, Shown, hrecvs, hcq, hlanded, hslot] using h

theorem ClientIn.congr {st : AcceptStage} {cs : ConnectStage} {e e' : End} (h : ClientIn st cs e)
    (hslots : e'.slots = e.slots) (hpage : e'.page = e.page) (hrecvs : e'.recvs = e.recvs)
    (hcq : e'.recvCq = e.recvCq) (hlanded : e'.landed = e.landed) : ClientIn st cs e' := by
  cases cs <;> simpa only [ClientIn, Hearing, FirstDone, SecondDone, Shown, hslots, hpage, hrecvs,
    hcq, hlanded] using h

/-- What one operation of the client does to its side. -/
structure ClientStep (v v' : ConnectView) (e e' : End) (accepted : Bool) (st : AcceptStage)
    (landed : ℕ) : Prop where
  /-- The side stays in order. -/
  side : ClientSide v' e' accepted st landed
  /-- What is posted stays posted. -/
  grows : v.stage.messages = [] ∨ v'.stage.messages = v.stage.messages
  /-- Nothing lands. -/
  landed_eq : e'.landed = e.landed

/-- An operation that does not move the stage. -/
theorem clientStep_of_eq (h : ClientSide v e accepted st landed) (hstage : v'.stage = v.stage)
    (howns : ∀ own mr buf, v.stage.own? = some own → v.Owns own mr buf → v'.Owns own mr buf) :
    ClientStep v v' e e accepted st landed := by
  refine ⟨⟨hstage.symm ▸ h.recvs, hstage.symm ▸ h.sends, fun own hown => ?_, hstage.symm ▸ h.up⟩,
    .inr (congrArg _ hstage), rfl⟩
  rw [hstage] at hown
  obtain ⟨mr, buf, h'⟩ := h.owns own hown
  exact ⟨mr, buf, howns own mr buf hown h'⟩

theorem clientStep_refl (h : ClientSide v e accepted st landed) :
    ClientStep v v e e accepted st landed := clientStep_of_eq h rfl fun _ _ _ _ => id

/-- An event that moves the stage from `now` to `next`, both of a connection that is up or both of
one that is not, and with the same variable to send. -/
theorem clientStep_on {now next : ConnectStage} {ev : Event}
    (h : ClientSide v e accepted st landed) (hnow : v.stage = now)
    (hnext : now.advance ev = next) (hin : ClientIn st next e')
    (hout : Outgoing next.messages next.reaped landed e') (hown : next.own? = now.own?)
    (hup : next.isUp = true → now.isUp = true)
    (hgrows : now.messages = [] ∨ next.messages = now.messages) (hlanded : e'.landed = e.landed) :
    ClientStep v (v.on ConnectStage.advance ev) e e' accepted st landed := by
  have hstage : (v.on ConnectStage.advance ev).stage = next := by rw [PeerView.on, hnow, hnext]
  refine ⟨⟨hstage ▸ hin, hstage ▸ hout, fun own ho => ?_, fun hu => ?_⟩, ?_, hlanded⟩
  · rw [hstage, hown, ← hnow] at ho
    exact h.owns own ho
  · rw [hstage] at hu
    exact h.up (hnow ▸ hup hu)
  · rw [hnow, hstage]
    exact hgrows

theorem clientStep_letConn {conn : Connection} {a : UInt64}
    (hrule : ConnectRule (.letConn conn) v) (h : ClientSide v e accepted st landed)
    (hfresh : a ∉ v.vars) :
    ClientStep v (v.place ConnectStage.advance a conn) e
      { e with slots := Function.update e.slots a conn } accepted st landed := by
  obtain ⟨hin, hout, -, hup⟩ := h
  rcases hrule with hstage | ⟨a', mr, buf, hstage, hmem, howns⟩ <;> rw [hstage] at hin hout hup
  · refine ⟨⟨?_, ?_, ?_, ?_⟩, .inl (by rw [hstage]; rfl), rfl⟩ <;>
      simp only [PeerView.place, hstage, ConnectStage.advance]
    · exact hin
    · exact hout.congr rfl rfl
    · intro _ h
      cases h
    · intro h
      cases h
  · have hne : a' ≠ a := fun heq => hfresh (heq ▸ hmem)
    have hhearing : Hearing st e a' := hin
    refine ⟨⟨?_, ?_, ?_, ?_⟩, .inl (by rw [hstage]; rfl), rfl⟩ <;>
      simp only [PeerView.place, hstage, ConnectStage.advance]
    · exact ⟨hne, Function.update_self ..,
        hhearing.congr rfl rfl rfl (Function.update_of_ne hne ..)⟩
    · exact hout.congr rfl rfl
    · rintro own ⟨⟩
      exact ⟨mr, buf, howns⟩
    · exact hup

theorem clientStep_postRecv {wr : IbvRecvWr} {r : CRet} (hrule : ConnectRule (.ibvPostRecv wr) v)
    (h : ClientSide v e accepted st landed) (he : e.after (.ibvPostRecv wr) r = some e') :
    ClientStep v (v.called ConnectStage.advance (.receiving wr.sge.addr) r) e e' accepted st
      landed := by
  cases he
  cases hok : r.isOk with
  | false =>
    rw [PeerView.called, hok]
    exact clientStep_refl h
  | true =>
    simp only [PeerView.called, hok, if_true]
    obtain ⟨hin, hout, -, -⟩ := id h
    rcases hrule with hstage | ⟨own, peer, hstage⟩ <;> rw [hstage] at hin hout
    · obtain ⟨hrecvs, hcq, hlanded⟩ := hin
      exact clientStep_on h hstage rfl (.inl ⟨by rw [hrecvs]; rfl, hcq, hlanded⟩)
        (hout.congr rfl rfl) rfl id (.inl rfl) rfl
    · obtain ⟨hrecvs, hcq, hlanded, hshown⟩ := hin
      exact clientStep_on h hstage rfl
        ⟨hshown, .inl ⟨wr.sge.addr, by rw [hrecvs]; rfl, hcq, hlanded⟩⟩
        (hout.congr rfl rfl) rfl id (.inr rfl) rfl

theorem clientStep_connect {r : CRet} (hrule : ConnectRule .rdmaConnect v)
    (h : ClientSide v e accepted st landed) (haccepted : r.isOk = true → accepted = true) :
    ClientStep v (v.called ConnectStage.advance .linked r) e e accepted st landed := by
  obtain ⟨a, hstage⟩ := hrule
  cases hok : r.isOk with
  | false =>
    rw [PeerView.called, hok]
    exact clientStep_refl h
  | true =>
    obtain ⟨hin, hout, -, -⟩ := h
    rw [hstage] at hin hout
    refine ⟨⟨?_, ?_, ?_, ?_⟩, .inl (by rw [hstage]; rfl), rfl⟩ <;>
      simp only [PeerView.called, hok, if_true, PeerView.on, hstage, ConnectStage.advance]
    · exact hin
    · exact hout
    · intro _ h
      cases h
    · exact fun _ => haccepted hok

theorem clientStep_postSend {wr : IbvSendWr} {r : CRet} (hrule : ConnectRule (.ibvPostSend wr) v)
    (h : ClientSide v e accepted st landed) (he : e.after (.ibvPostSend wr) r = some e') :
    ClientStep v (v.called ConnectStage.advance (.posted wr) r) e e' accepted st landed := by
  obtain ⟨a, own, hstage, hop⟩ := hrule
  cases he
  cases hok : r.isOk with
  | false =>
    rw [PeerView.called, hok]
    exact clientStep_refl h
  | true =>
    obtain ⟨hin, hout, -, -⟩ := id h
    rw [hstage] at hin hout
    obtain ⟨-, hown, hhearing⟩ := hin
    have hmsg : e.message wr = .send own := by rw [End.message, hop, ← hown]
    simp only [PeerView.called, hok, if_true, hmsg]
    exact clientStep_on h hstage rfl hhearing (hout.post (.send own)) rfl id (.inl rfl) rfl

theorem clientStep_pollSend {p : PollRet} (hrule : ConnectRule (.ibvPollCq .send) v)
    (h : ClientSide v e accepted st landed) (he : e.after (.ibvPollCq .send) p = some e') :
    ClientStep v (v.polled ConnectStage.advance .send p) e e' accepted st landed := by
  cases p with
  | entry wc =>
    obtain ⟨a, own, hstage⟩ := hrule
    simp only [End.after] at he
    split at he
    next wc' rest hcq =>
      split at he
      · cases he
        obtain ⟨hin, hout, -, -⟩ := id h
        rw [hstage] at hin hout
        exact clientStep_on h hstage rfl hin (hout.poll hcq) rfl id (.inr rfl) rfl
      · cases he
    · cases he
  | _ => cases he; exact clientStep_refl h

theorem clientStep_pollRecv {p : PollRet} (hrule : ConnectRule (.ibvPollCq .recv) v)
    (h : ClientSide v e accepted st landed) (he : e.after (.ibvPollCq .recv) p = some e') :
    ClientStep v (v.polled ConnectStage.advance .recv p) e e' accepted st landed := by
  cases p with
  | entry wc =>
    simp only [End.after] at he
    split at he
    next wc' rest hcq =>
      split at he
      next hwc =>
        cases he
        subst hwc
        obtain ⟨hin, hout, -, -⟩ := id h
        rcases hrule with ⟨a, own, hstage⟩ | ⟨own, peer, hstage⟩ <;> rw [hstage] at hin hout
        · rcases hin with ⟨-, hnil, -⟩ | ⟨hrecvs, _, hone, hshown⟩
          · rw [hcq] at hnil; cases hnil
          rw [hcq] at hone
          cases hone
          by_cases hwc : wc.status = ibvWcSuccess
          · exact clientStep_on h hstage (if_pos hwc) ⟨hrecvs, rfl, hshown hwc⟩
              (hout.congr rfl rfl) rfl id (.inr rfl) rfl
          · exact clientStep_on h hstage (if_neg hwc) hrecvs (hout.congr rfl rfl) rfl id (.inr rfl)
              rfl
        · obtain ⟨hshown, ⟨_, -, hnil, -⟩ | ⟨hrecvs, _, hone, htold⟩⟩ := hin
          · rw [hcq] at hnil; cases hnil
          rw [hcq] at hone
          cases hone
          by_cases hwc : wc.status = ibvWcSuccess
          · exact clientStep_on h hstage (if_pos hwc) ⟨hrecvs, hshown, htold hwc⟩
              (hout.congr rfl rfl) rfl id (.inr rfl) rfl
          · exact clientStep_on h hstage (if_neg hwc) hrecvs (hout.congr rfl rfl) rfl id (.inr rfl)
              rfl
      · cases he
    · cases he
  | _ => cases he; exact clientStep_refl h

theorem clientStep_readConn {addr : UInt64} {conn : Connection}
    (hrule : ConnectRule (.readConn addr) v) (h : ClientSide v e accepted st landed)
    (he : e.after (.readConn addr) conn = some e') :
    ClientStep v (v.on ConnectStage.advance (.fetched addr conn)) e e' accepted st landed := by
  obtain ⟨own, hstage⟩ := hrule
  simp only [End.after] at he
  split at he
  next hconn =>
    cases he
    obtain ⟨hin, hout, -, -⟩ := id h
    rw [hstage] at hin hout
    exact clientStep_on h hstage rfl (hconn ▸ hin) hout rfl id (.inr rfl) rfl
  · cases he

/-- The client reads its page. -/
theorem clientStep_read {buf : MemBuffer} (hrule : ConnectRule (.readPage buf) v)
    (h : ClientSide v e accepted st landed) :
    ClientStep v (v.on ConnectStage.advance (.saw e.page)) e e accepted st landed := by
  obtain ⟨own, peer, wc, hstage⟩ := hrule
  obtain ⟨hin, hout, -, -⟩ := id h
  rw [hstage] at hin hout
  exact clientStep_on h hstage rfl hin hout rfl id (.inr rfl) rfl

/-- **The client's side** after one operation that does not read the page. -/
theorem clientStep {op : Op} {c : PeerView.Choice} {r : op.Ans} (hrule : ConnectRule op v)
    (h : ClientSide v e cm.accepted st landed)
    (hv : ConnectView.handler op v c = some (r, v')) (he : e.after op r = some e')
    (hcm : cm.after op r = some cm') :
    cm' = cm ∧ ClientStep v v' e e' cm.accepted st landed := by
  cases op with
  | letConn conn =>
    obtain ⟨a, -, hv⟩ := Option.bind_eq_some_iff.mp hv
    split at hv
    · cases hv
    next hfresh => cases hv; cases he; cases hcm; exact ⟨rfl, clientStep_letConn hrule h hfresh⟩
  | ibvPostRecv wr =>
    obtain ⟨_, -, hv⟩ := Option.map_eq_some_iff.mp hv
    cases hv; cases hcm
    exact ⟨rfl, clientStep_postRecv hrule h he⟩
  | rdmaConnect =>
    obtain ⟨_, -, hv⟩ := Option.map_eq_some_iff.mp hv
    cases hv; cases he
    simp only [CmState.after] at hcm
    split at hcm
    · cases hcm
    next hup =>
      cases hcm
      refine ⟨rfl, clientStep_connect hrule h ?_⟩
      intro hok
      simpa [hok] using hup
  | ibvPollCq cq =>
    obtain ⟨_, -, hv⟩ := Option.map_eq_some_iff.mp hv
    cases hv; cases hcm
    cases cq with
    | recv => exact ⟨rfl, clientStep_pollRecv hrule h he⟩
    | send => exact ⟨rfl, clientStep_pollSend hrule h he⟩
  | ibvPostSend wr =>
    obtain ⟨_, -, hv⟩ := Option.map_eq_some_iff.mp hv
    cases hv; cases hcm
    exact ⟨rfl, clientStep_postSend hrule h he⟩
  | readConn addr =>
    obtain ⟨_, -, hv⟩ := Option.map_eq_some_iff.mp hv
    cases hv; cases hcm
    exact ⟨rfl, clientStep_readConn hrule h he⟩
  | newPage =>
    obtain ⟨_, -, hv⟩ := Option.map_eq_some_iff.mp hv
    cases hv; cases he; cases hcm
    have hstage : v.stage = .start := hrule
    refine ⟨rfl, clientStep_of_eq h rfl ?_⟩
    intro own _ _ hown
    rw [hstage] at hown
    cases hown
  | ibvRegMr addr length access =>
    obtain ⟨ks, -, hv⟩ := Option.map_eq_some_iff.mp hv
    cases hv; cases he; cases hcm
    cases r with
    | none => exact ⟨rfl, clientStep_refl h⟩
    | some k =>
      refine ⟨rfl, clientStep_of_eq h rfl ?_⟩
      rintro _ _ _ _ ⟨hconn, hcpu, hmem, haddr⟩
      exact ⟨hconn, hcpu, List.mem_cons_of_mem _ hmem, haddr⟩
  | rdmaAccept => exact hrule.elim
  | rdmaDisconnect => exact hrule.elim
  | writePage _ _ => exact hrule.elim
  | readPage _ => cases he
  | ibvQueryQp | ibvModifyQp _ | cuDeviceGet _ | cuDevicePrimaryCtxRetain | cuCtxSetCurrent
  | observe _ =>
    obtain ⟨_, -, hv⟩ := Option.map_eq_some_iff.mp hv
    cases hv; cases he; cases hcm
    exact ⟨rfl, clientStep_refl h⟩
  | ibvDeregMr _ | cuDevicePrimaryCtxRelease | recvCmd | select | spawn | lockReqs | putReqs _
  | unlockReqs | overflow | panic _ => cases hv

/-! ### What lands at the client -/

theorem ClientIn.grows {cs : ConnectStage} (h : ClientIn st cs e) (hg : st.Grows st') :
    ClientIn st' cs e := by
  have hhearing {a : UInt64} (h : Hearing st e a) : Hearing st' e a :=
    h.imp_right fun ⟨hrecvs, wc, hcq, hshown⟩ =>
      ⟨hrecvs, wc, hcq, fun hwc => ⟨(hshown hwc).1, hg.head _ (hshown hwc).2⟩⟩
  have htold {wc : IbvWc} {page : Page} (h : Told st wc page) : Told st' wc page :=
    let ⟨bytes, hoffer, hrest⟩ := h
    ⟨bytes, hg.offer _ hoffer, hrest⟩
  cases cs with
  | start | slot _ | flushed _ => exact h
  | listening a | connected a | sent a _ | told a _ => exact hhearing h
  | ready a b own => exact ⟨h.1, h.2.1, hhearing h.2.2⟩
  | heard a _ | knows _ peer => exact ⟨h.1, h.2.1, h.2.2.1, hg.head _ h.2.2.2⟩
  | expecting _ peer =>
    obtain ⟨hhead, hin⟩ := h
    exact ⟨hg.head _ hhead, hin.imp_right fun ⟨hrecvs, wc, hcq, h⟩ =>
      ⟨hrecvs, wc, hcq, fun hwc => htold (h hwc)⟩⟩
  | notified _ peer wc | read _ peer wc page => exact ⟨h.1, hg.head _ h.2.1, htold h.2.2⟩

/-- The receive that is posted, and what it is for. -/
theorem ClientIn.recv {cs : ConnectStage} {a : UInt64} {recvs : List UInt64}
    (h : ClientIn st cs e) (hrecvs : e.recvs = a :: recvs) : recvs = [] ∧ e.recvCq = [] ∧
      ((e.landed = 0 ∧ ∀ e', FirstDone st e' a → (∀ b, b ≠ a → e'.slots b = e.slots b) →
          ClientIn st cs e') ∨
        (e.landed = 1 ∧ ∀ e', SecondDone st e' → ClientIn st cs e')) := by
  have hhearing {a' : UInt64} (h : Hearing st e a') :
      a' = a ∧ recvs = [] ∧ e.recvCq = [] ∧ e.landed = 0 := by
    rcases h with ⟨hone, hcq, hlanded⟩ | ⟨hnil, -⟩
    · rw [hrecvs] at hone
      cases hone
      exact ⟨rfl, rfl, hcq, hlanded⟩
    · rw [hrecvs] at hnil
      cases hnil
  cases cs with
  | listening a' | connected a' | sent a' _ | told a' _ =>
    obtain ⟨rfl, hnil, hcq, hlanded⟩ := hhearing h
    exact ⟨hnil, hcq, .inl ⟨hlanded, fun e' hdone _ => .inr hdone⟩⟩
  | ready a' b own =>
    obtain ⟨hne, hown, h⟩ := h
    obtain ⟨rfl, hnil, hcq, hlanded⟩ := hhearing h
    exact ⟨hnil, hcq, .inl ⟨hlanded, fun e' hdone hslots =>
      ⟨hne, (hslots b hne.symm).trans hown, .inr hdone⟩⟩⟩
  | expecting own peer =>
    obtain ⟨hhead, ⟨a', hone, hcq, hlanded⟩ | ⟨hnil, -⟩⟩ := h
    · rw [hrecvs] at hone
      cases hone
      exact ⟨rfl, hcq, .inr ⟨hlanded, fun e' hdone => ⟨hhead, .inr hdone⟩⟩⟩
    · rw [hrecvs] at hnil
      cases hnil
  | flushed _ =>
    have hnil : e.recvs = [] := h
    rw [hrecvs] at hnil
    cases hnil
  | _ =>
    have hnil := h.1
    rw [hrecvs] at hnil
    cases hnil

/-- The first message of the server is its page, the second the list. -/
theorem messages_getElem? {i : ℕ} {msg : Msg} (h : st.messages[i]? = some msg) :
    (i = 0 ∧ ∃ own, msg = .send own) ∨ (i = 1 ∧ ∃ peer bytes, st.offer? = some bytes ∧
      msg = .write peer (htonl (UInt32.ofNat bytes.length))) := by
  cases st with
  | sent _ own | told _ own | knows own _ | written own _ _ =>
    rcases i with _ | i
    · cases h; exact .inl ⟨rfl, own, rfl⟩
    · simp [AcceptStage.messages] at h
  | offered own peer bytes | done own peer bytes =>
    rcases i with _ | _ | i
    · cases h; exact .inl ⟨rfl, own, rfl⟩
    · cases h; exact .inr ⟨rfl, peer, bytes, rfl, rfl⟩
    · simp [AcceptStage.messages] at h
  | _ => simp [AcceptStage.messages] at h

/-- **A message lands** at the client. -/
theorem ClientSide.land_send {a : UInt64} {recvs : List UInt64} {conn : Connection} {wc : IbvWc}
    (h : ClientSide v e accepted st landed) (hrecvs : e.recvs = a :: recvs)
    (hmsg : st.messages[e.landed]? = some (.send conn)) :
    ClientSide v
      { e with
        slots := Function.update e.slots a conn
        recvs := recvs
        recvCq := e.recvCq ++ [wc]
        landed := e.landed + 1 } accepted st landed := by
  obtain ⟨rfl, hcq, ⟨hlanded, hin⟩ | ⟨hlanded, -⟩⟩ := h.recvs.recv hrecvs
  · refine ⟨hin _ ⟨rfl, wc, by simp [hcq], fun _ => ⟨by simp [hlanded], ?_⟩⟩ fun b hb => ?_,
      h.sends.congr rfl rfl, h.owns, h.up⟩
    · rw [hlanded] at hmsg
      simpa [List.head?_eq_getElem?] using hmsg
    · exact Function.update_of_ne hb ..
  · rw [hlanded] at hmsg
    obtain ⟨hzero, -⟩ | ⟨-, _, _, -, hwrite⟩ := messages_getElem? hmsg
    · cases hzero
    · cases hwrite

/-- The list lands at the client. -/
theorem ClientSide.land_write {a : UInt64} {recvs : List UInt64} {peer : Connection} {imm : UInt32}
    {page : Page} (h : ClientSide v e accepted st landed) (hrecvs : e.recvs = a :: recvs)
    (hmsg : st.messages[e.landed]? = some (.write peer imm))
    (hpage : ∀ bytes, st.offer? = some bytes → page.StartsWith bytes) :
    ClientSide v
      { e with
        page := page
        recvs := recvs
        recvCq := e.recvCq ++ [⟨ibvWcSuccess, ibvWcRecvRdmaWithImm, imm⟩]
        landed := e.landed + 1 } accepted st landed := by
  obtain ⟨hzero, _, hsend⟩ | ⟨hone, _, bytes, hoffer, hwrite⟩ := messages_getElem? hmsg
  · cases hsend
  cases hwrite
  obtain ⟨rfl, hcq, ⟨hlanded, -⟩ | ⟨-, hin⟩⟩ := h.recvs.recv hrecvs
  · omega
  · refine ⟨hin _ ⟨rfl, _, by rw [hcq]; rfl, fun _ => ?_⟩, h.sends.congr rfl rfl, h.owns, h.up⟩
    exact ⟨bytes, hoffer, rfl, hpage bytes hoffer⟩

/-- A receive of the client is flushed. -/
theorem ClientSide.flush {status : UInt32} (h : ClientSide v e accepted st landed)
    (he : e.flush status = some e') :
    ClientSide v e' accepted st landed ∧ e'.landed = e.landed := by
  unfold End.flush at he
  split at he
  next a recvs hrecvs =>
    split at he
    · cases he
    next hstatus =>
      cases he
      obtain ⟨rfl, hcq, ⟨-, hin⟩ | ⟨-, hin⟩⟩ := h.recvs.recv hrecvs
      · exact ⟨⟨hin _ ⟨rfl, _, by rw [hcq]; rfl, fun hok => absurd hok hstatus⟩ fun _ _ => rfl,
          h.sends.congr rfl rfl, h.owns, h.up⟩, rfl⟩
      · exact ⟨⟨hin _ ⟨rfl, _, by rw [hcq]; rfl, fun hok => absurd hok hstatus⟩,
          h.sends.congr rfl rfl, h.owns, h.up⟩, rfl⟩
  · cases he

end Client

end Handshake

end RdmaTransport
