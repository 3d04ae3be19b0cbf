import RdmaTransport.Handshake.World

/-!
# The server's side of the handshake

What holds of a side at each stage. Messages land in the order in which they are posted, so what a
side has posted (`messages`), how much of it has landed and how much it has polled (`reaped`)
determine its outbox and its send queue: `Outgoing`. The receives depend on the stage, and what has
been received is what the other side has posted.

## Main definitions

* `Outgoing` — the messages of one side
* `ServerSide` — the server's side

## Main results

* `serverStep` — an operation of the server keeps its side in order
* `ServerSide.land` — so does a message that lands there
-/

namespace RdmaTransport

open Interaction

/-! ### Messages -/

namespace AcceptStage

/-- What has been posted. -/
def messages : AcceptStage → List Msg
  | sent _ own | told _ own | knows own _ | written own _ _ => [.send own]
  | offered own peer bytes | done own peer bytes =>
    [.send own, .write peer (htonl (UInt32.ofNat bytes.length))]
  | _ => []

/-- How many completions of requests have been polled. -/
def reaped : AcceptStage → ℕ
  | told _ _ | knows _ _ | written _ _ _ | offered _ _ _ => 1
  | done _ _ _ => 2
  | _ => 0

/-- The list that has been posted. -/
def offer? : AcceptStage → Option (List UInt8)
  | offered _ _ bytes | done _ _ bytes => some bytes
  | _ => none

/-- What has been posted stays posted. -/
structure Grows (st st' : AcceptStage) : Prop where
  /-- The first message stays the first. -/
  head : ∀ msg, st.messages.head? = some msg → st'.messages.head? = some msg
  /-- The list stays the list. -/
  offer : ∀ bytes, st.offer? = some bytes → st'.offer? = some bytes

theorem Grows.refl (st : AcceptStage) : Grows st st := ⟨fun _ => id, fun _ => id⟩

/-- As long as no list has been posted, only the messages have to stay. -/
theorem Grows.of_eq {st st' : AcceptStage} (hhead : st'.messages.head? = st.messages.head?)
    (hoffer : st.offer? = none) : Grows st st' where
  head _ h := hhead.trans h
  offer _ h := by
    rw [hoffer] at h
    cases h

theorem Grows.of_nil {st st' : AcceptStage} (hmsgs : st.messages = []) (hoffer : st.offer? = none) :
    Grows st st' where
  head _ h := by
    rw [hmsgs] at h
    cases h
  offer _ h := by
    rw [hoffer] at h
    cases h

end AcceptStage

namespace Handshake

/-- Of the messages `msgs` of a side, the first `landed` have landed, and of their completions all
but `reaped` are in its send queue. -/
structure Outgoing (msgs : List Msg) (reaped landed : ℕ) (e : End) : Prop where
  /-- The others are on their way. -/
  outbox : e.outbox = msgs.drop landed
  /-- No more have landed than have been posted. -/
  landed_le : landed ≤ msgs.length
  /-- Completions are polled one by one. -/
  reaped : e.sendCq.length + reaped = landed

section Outgoing

variable {msgs : List Msg} {reaped landed : ℕ} {e e' : End}

theorem Outgoing.congr (h : Outgoing msgs reaped landed e) (houtbox : e'.outbox = e.outbox)
    (hcq : e'.sendCq = e.sendCq) : Outgoing msgs reaped landed e' :=
  ⟨houtbox.trans h.outbox, h.landed_le, by rw [hcq, h.reaped]⟩

theorem Outgoing.post (h : Outgoing msgs reaped landed e) (msg : Msg) :
    Outgoing (msgs ++ [msg]) reaped landed { e with outbox := e.outbox ++ [msg] } where
  outbox := by rw [h.outbox, List.drop_append_of_le_length h.landed_le]
  landed_le := by
    have := h.landed_le
    simp only [List.length_append]
    omega
  reaped := h.reaped

theorem Outgoing.poll {wc : IbvWc} {rest : List IbvWc} (h : Outgoing msgs reaped landed e)
    (hcq : e.sendCq = wc :: rest) :
    Outgoing msgs (reaped + 1) landed { e with sendCq := rest } where
  outbox := h.outbox
  landed_le := h.landed_le
  reaped := by
    have := h.reaped
    rw [hcq, List.length_cons] at this
    change rest.length + (reaped + 1) = landed
    omega

/-- The oldest message on its way is the next one to land. -/
theorem Outgoing.oldest {msg : Msg} {rest : List Msg} (h : Outgoing msgs reaped landed e)
    (houtbox : e.outbox = msg :: rest) : msgs[landed]? = some msg := by
  rw [← List.head?_drop, ← h.outbox, houtbox, List.head?_cons]

theorem Outgoing.land {msg : Msg} {rest : List Msg} {wc : IbvWc}
    (h : Outgoing msgs reaped landed e) (houtbox : e.outbox = msg :: rest) :
    Outgoing msgs reaped (landed + 1) { e with outbox := rest, sendCq := e.sendCq ++ [wc] } where
  outbox := by
    rw [← List.drop_drop, ← h.outbox, houtbox, List.drop_one, List.tail_cons]
  landed_le := (List.getElem?_eq_some_iff.mp (h.oldest houtbox)).1
  reaped := by
    have := h.reaped
    simp only [List.length_append, List.length_singleton]
    omega

/-- A side that waits for a completion has a message on its way. -/
theorem Outgoing.exists_msg (h : Outgoing msgs reaped landed e) (hcq : e.sendCq = [])
    (hlt : reaped < msgs.length) : ∃ rest, e.outbox = msgs[reaped] :: rest := by
  have hlanded : landed = reaped := by
    have := h.reaped
    rw [hcq, List.length_nil] at this
    omega
  exact ⟨msgs.drop (reaped + 1), by rw [h.outbox, hlanded, List.drop_eq_getElem_cons hlt]⟩

/-- Of a side that has polled all its completions, all messages have landed. -/
theorem Outgoing.landed_eq (h : Outgoing msgs reaped landed e) {n : ℕ} (hreaped : reaped = n)
    (hlength : msgs.length = n) : landed = n := by
  have h₁ := h.reaped
  have h₂ := h.landed_le
  omega

end Outgoing

/-! ### The server's side -/

/-- The client's page has been received, and is `conn`. -/
def Heard (e : End) (msgs : List Msg) (conn : Connection) : Prop :=
  e.recvs = [] ∧ e.recvCq = [] ∧ e.landed = 1 ∧ msgs = [.send conn]

/-- The receives of the server. `msgs` is what the client has posted. -/
def ServerIn (st : AcceptStage) (e : End) (accepted : Bool) (msgs : List Msg) : Prop :=
  match st with
  | .start | .slot _ => e.recvs = [] ∧ e.recvCq = [] ∧ e.landed = 0 ∧ accepted = false
  | .listening a => e.recvs = [a] ∧ e.recvCq = [] ∧ e.landed = 0 ∧ accepted = false
  | .accepted a => (e.recvs = [a] ∧ e.recvCq = [] ∧ e.landed = 0) ∨
      (e.recvs = [] ∧ e.landed = 1 ∧ msgs = [.send (e.slots a)] ∧ ∃ wc, e.recvCq = [wc])
  | .heard a | .sent a _ | .told a _ => Heard e msgs (e.slots a)
  | .ready a b own => e.slots b = own ∧ Heard e msgs (e.slots a)
  | .knows _ peer | .written _ peer _ | .offered _ peer _ | .done _ peer _ => Heard e msgs peer

/-- The page of the server holds the list that it offers. -/
def ServerPage (bufs : List GPUMemBuffer) (st : AcceptStage) (page : Page) : Prop :=
  match st with
  | .written _ _ bytes => bytes.length ≤ cpuBufferBaseSize → page.StartsWith bytes
  | .offered _ _ bytes | .done _ _ bytes => Offers bufs bytes ∧ page.StartsWith bytes
  | _ => True

/-- The server's side. `landed` is how many of its messages have landed. -/
structure ServerSide (bufs : List GPUMemBuffer) (st : AcceptStage) (e : End) (accepted : Bool)
    (msgs : List Msg) (landed : ℕ) : Prop where
  /-- Its receives. -/
  recvs : ServerIn st e accepted msgs
  /-- Its messages. -/
  sends : Outgoing st.messages st.reaped landed e
  /-- Its page. -/
  page : ServerPage bufs st e.page

/-- The list that has been posted is one of the buffers, and the page holds it. -/
theorem ServerSide.offer {bufs : List GPUMemBuffer} {st : AcceptStage} {e : End} {accepted : Bool}
    {msgs : List Msg} {landed : ℕ} {bytes : List UInt8}
    (h : ServerSide bufs st e accepted msgs landed) (hoffer : st.offer? = some bytes) :
    Offers bufs bytes ∧ e.page.StartsWith bytes := by
  have hpage := h.page
  cases st with
  | offered _ _ _ | done _ _ _ => cases hoffer; exact hpage
  | _ => cases hoffer

/-- A server that has accepted and heard nothing yet has its receive posted. -/
theorem ServerSide.recvs_of_accepted {bufs : List GPUMemBuffer} {st : AcceptStage} {e : End}
    {accepted : Bool} {msgs : List Msg} {landed : ℕ}
    (h : ServerSide bufs st e accepted msgs landed) (haccepted : accepted = true)
    (hlanded : e.landed = 0) : ∃ a, e.recvs = [a] := by
  have hin := h.recvs
  cases st with
  | accepted a =>
    rcases hin with ⟨hrecvs, -⟩ | ⟨-, hone, -⟩
    · exact ⟨a, hrecvs⟩
    · omega
  | _ => simp_all [ServerIn, Heard]

/-- The receives of a side do not depend on what it sends. -/
theorem ServerIn.congr {st : AcceptStage} {e e' : End} {accepted : Bool} {msgs : List Msg}
    (h : ServerIn st e accepted msgs) (hslots : e'.slots = e.slots) (hrecvs : e'.recvs = e.recvs)
    (hcq : e'.recvCq = e.recvCq) (hlanded : e'.landed = e.landed) :
    ServerIn st e' accepted msgs := by
  cases st <;> simpa only [ServerIn, Heard, hslots, hrecvs, hcq, hlanded] using h

/-- What the client posts does not change what the server has received. -/
theorem ServerSide.of_messages {bufs : List GPUMemBuffer} {st : AcceptStage} {e : End}
    {accepted : Bool} {msgs msgs' : List Msg} {landed : ℕ}
    (h : ServerSide bufs st e accepted msgs landed)
    (hmsgs : msgs = [] ∨ msgs' = msgs) : ServerSide bufs st e accepted msgs' landed := by
  rcases hmsgs with rfl | rfl
  · refine ⟨?_, h.sends, h.page⟩
    have hin := h.recvs
    cases st with
    | start | slot _ | listening _ => exact hin
    | accepted a =>
      refine .inl (hin.resolve_right ?_)
      rintro ⟨-, -, hmsgs, -⟩
      cases hmsgs
    | ready a b own => cases hin.2.2.2.2
    | _ => cases hin.2.2.2
  · exact h

section Server

variable {bufs : List GPUMemBuffer} {v v' : AcceptView} {e e' : End} {accepted : Bool}
  {cm cm' : CmState} {msgs : List Msg} {landed : ℕ}

/-- What one operation of the server does to its side. -/
structure ServerStep (bufs : List GPUMemBuffer) (v v' : AcceptView) (e e' : End)
    (accepted accepted' : Bool) (msgs : List Msg) (landed : ℕ) : Prop where
  /-- The side stays in order. -/
  side : ServerSide bufs v'.stage e' accepted' msgs landed
  /-- What is posted stays posted. -/
  grows : v.stage.Grows v'.stage
  /-- Nothing lands. -/
  landed_eq : e'.landed = e.landed
  /-- An accepted connection stays accepted. -/
  accepted : accepted = true → accepted' = true

/-- An operation without effect. -/
theorem serverStep_of_eq (h : ServerSide bufs v.stage e accepted msgs landed)
    (hstage : v'.stage = v.stage) : ServerStep bufs v v' e e accepted accepted msgs landed :=
  ⟨hstage.symm ▸ h, hstage.symm ▸ .refl _, rfl, id⟩

theorem serverStep_letConn {conn : Connection} {a : UInt64}
    (hrule : AcceptRule bufs (.letConn conn) v) (h : ServerSide bufs v.stage e accepted msgs landed)
    (hfresh : a ∉ v.vars) :
    ServerStep bufs v (v.place AcceptStage.advance a conn) e
      { e with slots := Function.update e.slots a conn } accepted accepted msgs landed := by
  rcases hrule with hstage | ⟨a', mr, buf, hstage, hmem, -⟩
  · obtain ⟨hin, hout, -⟩ := h
    rw [hstage] at hin hout
    refine ⟨?_, ?_, rfl, id⟩
    · simp only [PeerView.place, hstage, AcceptStage.advance]
      exact ⟨hin, hout.congr rfl rfl, trivial⟩
    · simp only [PeerView.place, hstage, AcceptStage.advance]
      exact .of_nil rfl rfl
  · obtain ⟨hin, hout, -⟩ := h
    rw [hstage] at hin hout
    have hne : a' ≠ a := fun heq => hfresh (heq ▸ hmem)
    refine ⟨?_, ?_, rfl, id⟩
    · simp only [PeerView.place, hstage, AcceptStage.advance]
      refine ⟨⟨Function.update_self .., ?_⟩, hout.congr rfl rfl, trivial⟩
      change Heard _ _ (Function.update e.slots a conn a')
      rw [Function.update_of_ne hne]
      exact hin
    · simp only [PeerView.place, hstage, AcceptStage.advance]
      exact .of_nil rfl rfl

theorem serverStep_postRecv {wr : IbvRecvWr} {r : CRet}
    (hrule : AcceptRule bufs (.ibvPostRecv wr) v)
    (h : ServerSide bufs v.stage e accepted msgs landed)
    (he : e.after (.ibvPostRecv wr) r = some e') :
    ServerStep bufs v (v.called AcceptStage.advance (.receiving wr.sge.addr) r) e e' accepted
      accepted msgs landed := by
  have hstage : v.stage = .slot wr.sge.addr := hrule
  cases he
  cases hok : r.isOk with
  | false => exact serverStep_of_eq h (by rw [PeerView.called, hok]; rfl)
  | true =>
    obtain ⟨hin, hout, -⟩ := h
    rw [hstage] at hin hout
    obtain ⟨hrecvs, hcq, hlanded, haccepted⟩ := hin
    refine ⟨?_, ?_, rfl, id⟩ <;>
      simp only [PeerView.called, hok, if_true, PeerView.on, hstage, AcceptStage.advance]
    · exact ⟨⟨by rw [hrecvs]; rfl, hcq, hlanded, haccepted⟩, hout.congr rfl rfl, trivial⟩
    · exact .of_nil rfl rfl

theorem serverStep_accept {r : CRet} (hrule : AcceptRule bufs .rdmaAccept v)
    (h : ServerSide bufs v.stage e accepted msgs landed) :
    ServerStep bufs v (v.called AcceptStage.advance .linked r) e e accepted
      (accepted || CRet.isOk r) msgs landed := by
  obtain ⟨a, hstage⟩ := hrule
  cases hok : r.isOk with
  | false =>
    rw [PeerView.called, hok, Bool.or_false]
    exact serverStep_of_eq h rfl
  | true =>
    obtain ⟨hin, hout, -⟩ := h
    rw [hstage] at hin hout
    obtain ⟨hrecvs, hcq, hlanded, -⟩ := hin
    refine ⟨?_, ?_, rfl, fun _ => Bool.or_true _⟩ <;>
      simp only [PeerView.called, hok, if_true, PeerView.on, hstage, AcceptStage.advance]
    · exact ⟨.inl ⟨hrecvs, hcq, hlanded⟩, hout, trivial⟩
    · exact .of_nil rfl rfl

theorem serverStep_pollRecv {p : PollRet} (hrule : AcceptRule bufs (.ibvPollCq .recv) v)
    (h : ServerSide bufs v.stage e accepted msgs landed)
    (he : e.after (.ibvPollCq .recv) p = some e') :
    ServerStep bufs v (v.polled AcceptStage.advance .recv p) e e' accepted accepted msgs
      landed := by
  cases p with
  | entry wc =>
    obtain ⟨a, hstage⟩ := hrule
    obtain ⟨hin, hout, -⟩ := h
    rw [hstage] at hin hout
    simp only [End.after] at he
    split at he
    next wc' rest hcq =>
      split at he
      · cases he
        rcases hin with ⟨-, hnil, -⟩ | ⟨hrecvs, hlanded, hmsgs, _, hone⟩
        · rw [hcq] at hnil; cases hnil
        · rw [hcq] at hone
          cases hone
          refine ⟨?_, ?_, rfl, id⟩ <;>
            simp only [PeerView.polled, PeerView.on, hstage, AcceptStage.advance]
          · exact ⟨⟨hrecvs, rfl, hlanded, hmsgs⟩, hout.congr rfl rfl, trivial⟩
          · exact .of_nil rfl rfl
      · cases he
    · cases he
  | _ => cases he; exact serverStep_of_eq h rfl

theorem serverStep_postSend {wr : IbvSendWr} {r : CRet}
    (hrule : AcceptRule bufs (.ibvPostSend wr) v)
    (h : ServerSide bufs v.stage e accepted msgs landed)
    (he : e.after (.ibvPostSend wr) r = some e') :
    ServerStep bufs v (v.called AcceptStage.advance (.posted wr) r) e e' accepted accepted msgs
      landed := by
  cases he
  cases hok : r.isOk with
  | false => exact serverStep_of_eq h (by rw [PeerView.called, hok]; rfl)
  | true =>
    obtain ⟨hin, hout, hpage⟩ := h
    rcases hrule with ⟨a, own, hstage, hop⟩ | ⟨own, peer, bytes, hstage, hwr, hoffers⟩
    · rw [hstage] at hin hout
      obtain ⟨hown, hheard⟩ := hin
      have hmsg : e.message wr = .send own := by rw [End.message, hop, ← hown]
      refine ⟨?_, ?_, rfl, id⟩ <;>
        simp only [PeerView.called, hok, if_true, PeerView.on, hstage, AcceptStage.advance, hmsg]
      · exact ⟨hheard, hout.post (.send own), trivial⟩
      · exact .of_nil rfl rfl
    · rw [hstage] at hin hout hpage
      obtain ⟨hop, haddr, hrkey, himm⟩ := hwr
      have hmsg : e.message wr = .write peer (htonl (UInt32.ofNat bytes.length)) := by
        rw [End.message, hop, haddr, hrkey, himm]
      refine ⟨?_, ?_, rfl, id⟩ <;>
        simp only [PeerView.called, hok, if_true, PeerView.on, hstage, AcceptStage.advance, hmsg]
      · exact ⟨hin, hout.post _, hoffers, hpage hoffers.1⟩
      · exact .of_eq rfl rfl

theorem serverStep_pollSend {p : PollRet} (hrule : AcceptRule bufs (.ibvPollCq .send) v)
    (h : ServerSide bufs v.stage e accepted msgs landed)
    (he : e.after (.ibvPollCq .send) p = some e') :
    ServerStep bufs v (v.polled AcceptStage.advance .send p) e e' accepted accepted msgs
      landed := by
  cases p with
  | entry wc =>
    simp only [End.after] at he
    split at he
    next wc' rest hcq =>
      split at he
      · cases he
        obtain ⟨hin, hout, hpage⟩ := h
        rcases hrule with ⟨a, own, hstage⟩ | ⟨own, peer, bytes, hstage⟩ <;>
          rw [hstage] at hin hout hpage <;> refine ⟨?_, ?_, rfl, id⟩ <;>
          simp only [PeerView.polled, PeerView.on, hstage, AcceptStage.advance]
        · exact ⟨hin, hout.poll hcq, trivial⟩
        · exact .of_eq rfl rfl
        · exact ⟨hin, hout.poll hcq, hpage⟩
        · exact ⟨fun _ => id, fun _ => id⟩
      · cases he
    · cases he
  | _ => cases he; exact serverStep_of_eq h rfl

theorem serverStep_readConn {addr : UInt64} {conn : Connection}
    (hrule : AcceptRule bufs (.readConn addr) v)
    (h : ServerSide bufs v.stage e accepted msgs landed)
    (he : e.after (.readConn addr) conn = some e') :
    ServerStep bufs v (v.on AcceptStage.advance (.fetched addr conn)) e e' accepted accepted msgs
      landed := by
  obtain ⟨own, hstage⟩ := hrule
  simp only [End.after] at he
  split at he
  next hconn =>
    cases he
    obtain ⟨hin, hout, -⟩ := h
    rw [hstage] at hin hout
    refine ⟨?_, ?_, rfl, id⟩ <;> simp only [PeerView.on, hstage, AcceptStage.advance]
    · exact ⟨hconn ▸ hin, hout, trivial⟩
    · exact .of_eq rfl rfl
  · cases he

theorem serverStep_writePage {buf : MemBuffer} {bytes : List UInt8}
    (hrule : AcceptRule bufs (.writePage buf bytes) v)
    (h : ServerSide bufs v.stage e accepted msgs landed) :
    ServerStep bufs v (v.on AcceptStage.advance (.wrote bytes)) e
      { e with page := e.page.write bytes } accepted accepted msgs landed := by
  obtain ⟨own, peer, hstage⟩ := hrule
  obtain ⟨hin, hout, -⟩ := h
  rw [hstage] at hin hout
  refine ⟨?_, ?_, rfl, id⟩ <;> simp only [PeerView.on, hstage, AcceptStage.advance]
  · exact ⟨hin, hout.congr rfl rfl, fun hlen => Page.startsWith_write _ hlen⟩
  · exact .of_eq rfl rfl

/-- **The server's side** after one operation. -/
theorem serverStep {op : Op} {c : PeerView.Choice} {r : op.Ans} (hrule : AcceptRule bufs op v)
    (h : ServerSide bufs v.stage e cm.accepted msgs landed)
    (hv : AcceptView.handler op v c = some (r, v')) (he : e.after op r = some e')
    (hcm : cm.after op r = some cm') :
    ServerStep bufs v v' e e' cm.accepted cm'.accepted msgs landed := by
  cases op with
  | letConn conn =>
    obtain ⟨a, -, hv⟩ := Option.bind_eq_some_iff.mp hv
    split at hv
    · cases hv
    next hfresh => cases hv; cases he; cases hcm; exact serverStep_letConn hrule h hfresh
  | ibvPostRecv wr =>
    obtain ⟨_, -, hv⟩ := Option.map_eq_some_iff.mp hv
    cases hv; cases hcm
    exact serverStep_postRecv hrule h he
  | rdmaAccept =>
    obtain ⟨_, -, hv⟩ := Option.map_eq_some_iff.mp hv
    cases hv; cases he; cases hcm
    exact serverStep_accept hrule h
  | ibvPollCq cq =>
    obtain ⟨_, -, hv⟩ := Option.map_eq_some_iff.mp hv
    cases hv; cases hcm
    cases cq with
    | recv => exact serverStep_pollRecv hrule h he
    | send => exact serverStep_pollSend hrule h he
  | ibvPostSend wr =>
    obtain ⟨_, -, hv⟩ := Option.map_eq_some_iff.mp hv
    cases hv; cases hcm
    exact serverStep_postSend hrule h he
  | readConn addr =>
    obtain ⟨_, -, hv⟩ := Option.map_eq_some_iff.mp hv
    cases hv; cases hcm
    exact serverStep_readConn hrule h he
  | writePage buf bytes =>
    obtain ⟨_, -, hv⟩ := Option.map_eq_some_iff.mp hv
    cases hv; cases he; cases hcm
    exact serverStep_writePage hrule h
  | rdmaConnect => exact hrule.elim
  | readPage _ => exact hrule.elim
  | ibvRegMr addr length access =>
    obtain ⟨ks, -, hv⟩ := Option.map_eq_some_iff.mp hv
    cases hv; cases he; cases hcm
    exact serverStep_of_eq h (by cases r <;> rfl)
  | ibvQueryQp | ibvModifyQp _ | rdmaDisconnect | cuDeviceGet _ | cuDevicePrimaryCtxRetain
  | cuCtxSetCurrent | newPage | observe _ =>
    obtain ⟨_, -, hv⟩ := Option.map_eq_some_iff.mp hv
    cases hv; cases he; cases hcm
    exact serverStep_of_eq h rfl
  | ibvDeregMr _ | cuDevicePrimaryCtxRelease | recvCmd | select | spawn | lockReqs | putReqs _
  | unlockReqs | overflow | panic _ => cases hv

/-- The view and the connection manager agree on whether the server has disconnected. -/
theorem closed_eq {op : Op} {c : PeerView.Choice} {r : op.Ans} (hrule : AcceptRule bufs op v)
    (hv : AcceptView.handler op v c = some (r, v')) (hcm : cm.after op r = some cm')
    (h : v.closed = cm.disconnected) : v'.closed = cm'.disconnected := by
  cases op with
  | rdmaDisconnect =>
    obtain ⟨_, -, hv⟩ := Option.map_eq_some_iff.mp hv
    cases hv; cases hcm
    exact congrArg (· || _) h
  | letConn conn =>
    obtain ⟨a, -, hv⟩ := Option.bind_eq_some_iff.mp hv
    split at hv
    · cases hv
    · cases hv; cases hcm; exact h
  | ibvPollCq _ | ibvPostRecv _ | ibvPostSend _ | rdmaAccept =>
    obtain ⟨_, -, hv⟩ := Option.map_eq_some_iff.mp hv
    cases hv; cases hcm
    simpa using h
  | ibvRegMr _ _ _ =>
    obtain ⟨_, -, hv⟩ := Option.map_eq_some_iff.mp hv
    cases hv; cases hcm
    cases r <;> exact h
  | readConn _ | writePage _ _ | readPage _ | ibvQueryQp | ibvModifyQp _ | cuDeviceGet _
  | cuDevicePrimaryCtxRetain | cuCtxSetCurrent | newPage | observe _ =>
    obtain ⟨_, -, hv⟩ := Option.map_eq_some_iff.mp hv
    cases hv; cases hcm
    exact h
  | rdmaConnect => exact hrule.elim
  | ibvDeregMr _ | cuDevicePrimaryCtxRelease | recvCmd | select | spawn | lockReqs | putReqs _
  | unlockReqs | overflow | panic _ => cases hv

/-- A receive of an accepted connection is the one that the client's page lands in. -/
theorem ServerIn.recv {st : AcceptStage} {a : UInt64} {recvs : List UInt64}
    (h : ServerIn st e true msgs) (hrecvs : e.recvs = a :: recvs) :
    st = .accepted a ∧ recvs = [] ∧ e.recvCq = [] ∧ e.landed = 0 := by
  cases st with
  | accepted a' =>
    rcases h with ⟨hone, hcq, hlanded⟩ | ⟨hnil, -⟩
    · rw [hrecvs] at hone
      cases hone
      exact ⟨rfl, rfl, hcq, hlanded⟩
    · rw [hrecvs] at hnil
      cases hnil
  | _ => simp [ServerIn, Heard, hrecvs] at h

/-- **A message lands** at the server. It is the client's page. -/
theorem ServerSide.land {st : AcceptStage} {a : UInt64} {recvs : List UInt64} {own : Connection}
    {wc : IbvWc} (h : ServerSide bufs st e true [.send own] landed)
    (hrecvs : e.recvs = a :: recvs) :
    ServerSide bufs st
      { e with
        slots := Function.update e.slots a own
        recvs := recvs
        recvCq := e.recvCq ++ [wc]
        landed := e.landed + 1 } true [.send own] landed := by
  obtain ⟨rfl, rfl, hcq, hlanded⟩ := h.recvs.recv hrecvs
  refine ⟨.inr ⟨rfl, by simp [hlanded], ?_, wc, by simp [hcq]⟩, h.sends.congr rfl rfl, trivial⟩
  simp

end Server

end Handshake

end RdmaTransport
