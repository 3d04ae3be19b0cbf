import RdmaTransport.Vllm.Link

/-!
# The two ends, step by step

The client has one page and one request at a time, the server one page and one receive. `ClientSide`
relates the request on its way and the two pages to what the worker uses its page for; `ServerSide`
relates the receives and their completions to what the handler is doing. A notification is at any
time in one of three places: still with the client (`flying`), consumed a receive but not decoded
(at most one), or decoded.

## Main definitions

* `Sys.undisturbed` — no bytes land on an unread notification
* `ClientSide`, `ServerSide`, `flying` — the state of the two ends

## Main results

* `side_client`, `side_server` — the operations of the two programs keep both ends in order
* `side_place`, `side_finish`, `side_fail` — so do the steps of the connection
-/

namespace RdmaTransport

open Interaction

/-! ### What is asked of a run -/

namespace Sys

/-- No bytes land on a notification that the server has been told of and has not read. The last
bytes of a write need a receive, so it is the earlier ones that can. -/
def undisturbed (s : Sys) : Label → Bool
  | .place _ => !s.unread
  | _ => true

/-- The posts of the client are accepted, and its polls hand out success completions. -/
def callsSucceed : (op : Op) → ClientView → ClientView.Choice → Bool
  | .ibvPostSend _, _, .ret r => CRet.isOk r
  | .ibvPollCq .send, _, .polled p =>
    match p with
    | .entry wc => wc.status == ibvWcSuccess
    | _ => false
  | _, _, _ => true

/-- A guard on the choices of the client's environment. -/
def clientPermits (g : (op : Op) → ClientView → ClientView.Choice → Bool) (s : Sys) : Label → Bool
  | .client choice => Handler.permits g s.client choice
  | _ => true

theorem clientPermits_mono {g g' : (op : Op) → ClientView → ClientView.Choice → Bool} {s : Sys}
    {l : Label} (hg : ∀ op v choice, g op v choice = true → g' op v choice = true)
    (h : s.clientPermits g l = true) : s.clientPermits g' l = true := by
  cases l with
  | client choice => exact Handler.permits_mono hg h
  | _ => rfl

end Sys

theorem transfersSucceed_of_callsSucceed {op : Op} {v : ClientView} {choice : ClientView.Choice}
    (h : Sys.callsSucceed op v choice = true) : transfersSucceed op v choice = true := by
  unfold Sys.callsSucceed at h
  split at h
  · simp [transfersSucceed, h]
  · split at h
    · simp [transfersSucceed, h]
    · cases h
  next hpost hpoll =>
    unfold transfersSucceed
    split
    · exact (hpost _ _ rfl rfl).elim
    · exact (hpoll _ rfl rfl).elim
    · rfl

/-! ### The two ends -/

/-- The completion announces the notification. -/
structure Announces (wc : IbvWc) (n : Notification) : Prop where
  /-- It is one of a write with immediate. -/
  opcode : wc.opcode = ibvWcRecvRdmaWithImm
  /-- Its immediate is the size of the encoding. -/
  imm : wc.immData = htonl (UInt16.ofNat n.serializedSize).toUInt32

/-- The request on its way, and the client's page, are what the worker is using its page for. Of a
write with immediate, what has landed is the beginning of the client's page. -/
def ClientSide (v : ClientView) (w : Wire) : Prop :=
  w.sq.length = v.outstanding.length ∧
    match v.stage with
    | .idle => ∀ f ∈ w.sq, w.sq = [f] ∧ f.wr.opcode ≠ .rdmaWriteWithImm
    | .written bytes => w.sq = [] ∧
        (bytes.length ≤ cpuBufferBaseSize → w.clientPage.StartsWith bytes)
    | .ready n => w.sq = [] ∧ w.clientPage.StartsWith n.serialize
    | .posted n => w.clientPage.StartsWith n.serialize ∧
        ∃ f, w.sq = [f] ∧ f.wr.opcode = .rdmaWriteWithImm ∧
          f.wr.immData = htonl (UInt16.ofNat n.serializedSize).toUInt32 ∧
          (f.status = none → ∀ i : Fin cpuBufferBaseSize, i < f.placed →
            w.serverPage i = w.clientPage i)

/-- What the client has put into its page and has not reached the server. -/
def flying (v : ClientView) (w : Wire) : List Notification :=
  match v.stage with
  | .ready n => [n]
  | .posted n => if w.sq.all fun f => f.status != some ibvWcSuccess then [n] else []
  | _ => []

/-- The receive and its completion are where the handler is, and `pending` is what has consumed a
receive and has not been decoded. -/
def ServerSide (v : ServerView) (w : Wire) (pending : List Notification) : Prop :=
  match v.stage with
  | .idle => w.recvs = 0 ∧ w.recvCq = [] ∧ pending = []
  | .waiting => (w.recvs = 1 ∧ w.recvCq = [] ∧ pending = []) ∨
      (w.recvs = 0 ∧ ∃ wc n, w.recvCq = [wc] ∧ pending = [n] ∧ Announces wc n ∧
        w.serverPage.StartsWith n.serialize)
  | .polled wc => w.recvs = 0 ∧ w.recvCq = [] ∧ ∃ n, pending = [n] ∧ Announces wc n ∧
      w.serverPage.StartsWith n.serialize
  | .read wc page => w.recvs = 0 ∧ w.recvCq = [] ∧ ∃ n, pending = [n] ∧ Announces wc n ∧
      page.StartsWith n.serialize

/-- The bytes that an announcement names are the notification that the page starts with. -/
theorem Announces.slice_eq {wc : IbvWc} {n : Notification} {page : Page} (h : Announces wc n)
    (hpage : page.StartsWith n.serialize) : ∃ hle : (ntohl wc.immData).toNat ≤ cpuBufferBaseSize,
      page.slice (ntohl wc.immData).toNat hle = n.serialize := by
  obtain ⟨hfits, hslice⟩ := hpage
  have hsize : (ntohl wc.immData).toNat = n.serialize.length := by
    have hlt : n.serialize.length < 2 ^ 16 := lt_of_le_of_lt hfits (by decide)
    rw [h.imm, ntohl_htonl, UInt16.toNat_toUInt32, Notification.serializedSize]
    exact UInt16.toNat_ofNat_of_lt' hlt
  have hle : (ntohl wc.immData).toNat ≤ cpuBufferBaseSize := hsize.trans_le hfits
  refine ⟨hle, Eq.trans ?_ hslice⟩
  simp only [hsize]

/-- An announced notification is decoded from a page that starts with it. -/
theorem Announces.deserialize {wc : IbvWc} {n m : Notification} {page : Page}
    (h : Announces wc n) (hpage : page.StartsWith n.serialize)
    (hle : (ntohl wc.immData).toNat ≤ cpuBufferBaseSize)
    (hm : Notification.deserialize (page.slice (ntohl wc.immData).toNat hle) = .ok m) : m = n := by
  obtain ⟨_, hback⟩ := h.slice_eq hpage
  rw [hback, Notification.deserialize_serialize hpage.1] at hm
  exact (Except.ok.inj hm).symm

/-- What is decoded is what was pending. -/
theorem ServerSide.pending_of_yields {v : ServerView} {w : Wire} {pending : List Notification}
    {n : Notification} (h : ServerSide v w pending) (hn : Yields v.stage n) :
    w.recvs = 0 ∧ w.recvCq = [] ∧ pending = [n] := by
  rcases hn with ⟨wc, page, hstage, hle, hm⟩ | ⟨wc, hstage, hop, -⟩
  · rw [ServerSide, hstage] at h
    obtain ⟨hrecvs, hcq, m, rfl, hann, hpage⟩ := h
    exact ⟨hrecvs, hcq, by rw [hann.deserialize hpage hle hm]⟩
  · rw [ServerSide, hstage] at h
    obtain ⟨-, -, m, -, hann, -⟩ := h
    exact absurd hann.opcode hop

/-! ### The client's operations -/

section Client

variable {cmds : List Command} {v v' : ClientView} {w w' : Wire}

/-- What the client has put into its page is with the client still, unless it has been lost. If
`sound`, nothing is. -/
def Sent (v v' : ClientView) (w w' : Wire) (sound : Bool) : Prop :=
  ∃ new, v'.wrote = v.wrote ++ new ∧ (flying v' w').Sublist (flying v w ++ new) ∧
    (sound = true → flying v' w' = flying v w ++ new)

theorem sent_of_flying_eq {sound : Bool} (hwrote : v'.wrote = v.wrote)
    (hflying : flying v' w' = flying v w) : Sent v v' w w' sound :=
  ⟨[], by simp [hwrote], by simp [hflying], fun _ => by simp [hflying]⟩

theorem sent_of_lost {sound : Bool} (hwrote : v'.wrote = v.wrote) (hflying : flying v' w' = [])
    (hsound : sound = true → flying v w = []) : Sent v v' w w' sound :=
  ⟨[], by simp [hwrote], by simp [hflying], fun h => by simp [hflying, hsound h]⟩

theorem ClientSide.sq_eq_nil (h : ClientSide v w) (hout : v.outstanding = []) : w.sq = [] := by
  refine List.length_eq_zero_iff.mp ?_
  rw [h.1, hout, List.length_nil]

theorem side_writePage {buf : MemBuffer} {bytes : List UInt8} {sound : Bool}
    (hrule : ClientRule cmds (.writePage buf bytes) v) (h : ClientSide v w) :
    ClientSide { v with stage := .written bytes }
        { w with clientPage := w.clientPage.write bytes } ∧
      Sent v { v with stage := .written bytes } w
        { w with clientPage := w.clientPage.write bytes } sound := by
  obtain ⟨-, hstage, hout⟩ := hrule
  refine ⟨⟨h.1, h.sq_eq_nil hout, fun hlen => Page.startsWith_write _ hlen⟩,
    sent_of_flying_eq rfl ?_⟩
  simp [flying, hstage]

theorem side_note {o : Observation} {sound : Bool} (hrule : ClientRule cmds (.observe o) v)
    (h : ClientSide v w) : ClientSide (v.note o) w ∧ Sent v (v.note o) w w sound := by
  cases o with
  | wrote n =>
    obtain ⟨-, hstage, hout, hfits⟩ := hrule
    have hpage : w.clientPage.StartsWith n.serialize := by
      have hside := h.2
      simp only [hstage] at hside
      exact hside.2 hfits
    refine ⟨⟨h.1, h.sq_eq_nil hout, hpage⟩, [n], rfl, ?_, fun _ => ?_⟩ <;>
      simp [flying, hstage, ClientView.note]
  | _ => exact ⟨h, sent_of_flying_eq rfl rfl⟩

theorem side_post {wr : IbvSendWr} {r : CRet} (hrule : ClientRule cmds (.ibvPostSend wr) v)
    (h : ClientSide v w) (hw : w.client (.ibvPostSend wr) (.ret r) = some w') :
    ClientSide (if r.isOk then v.accepted else v.refused) w' ∧
      Sent v (if r.isOk then v.accepted else v.refused) w w' r.isOk := by
  obtain ⟨-, hout, huse⟩ := hrule
  have hsq := h.sq_eq_nil hout
  cases hw
  cases hok : r.isOk with
  | false =>
    rcases huse with ⟨hstage, -⟩ | ⟨n, hstage, -, -⟩
    · refine ⟨⟨h.1, ?_⟩, sent_of_flying_eq rfl ?_⟩ <;>
        simp [ClientView.refused, Stage.refuse, hstage, hsq, flying]
    · refine ⟨⟨h.1, ?_⟩, sent_of_lost rfl ?_ (absurd · Bool.false_ne_true)⟩ <;>
        simp [ClientView.refused, Stage.refuse, hstage, hsq, flying]
  | true =>
    rcases huse with ⟨hstage, hop⟩ | ⟨n, hstage, hop, himm⟩
    · refine ⟨⟨by simp [ClientView.accepted, h.1], ?_⟩, sent_of_flying_eq rfl ?_⟩ <;>
        simp [ClientView.accepted, Stage.post, hstage, hsq, hop, flying]
    · have hside := h.2
      simp only [hstage] at hside
      refine ⟨⟨by simp [ClientView.accepted, h.1], ?_⟩, sent_of_flying_eq rfl ?_⟩
      · simp [ClientView.accepted, Stage.post, hstage, hsq, hop, himm, hside.2]
      · simp [ClientView.accepted, Stage.post, hstage, hsq, flying]

theorem side_poll {wc : IbvWc} {k : ℕ} {rest : List ℕ}
    (hrule : ClientRule cmds (.ibvPollCq .send) v) (h : ClientSide v w)
    (hout : v.outstanding = k :: rest)
    (hw : w.client (.ibvPollCq .send) (.polled (.entry wc)) = some w') :
    ClientSide (v.completed k rest wc) w' ∧
      Sent v (v.completed k rest wc) w w' (wc.status == ibvWcSuccess) := by
  obtain ⟨-, hone, huse⟩ := hrule
  rw [hout] at hone
  cases hone
  obtain ⟨hlen, hside⟩ := h
  rw [hout] at hlen
  simp only [Wire.client] at hw
  split at hw
  next f fs hsq =>
    rw [hsq] at hlen
    obtain rfl : fs = [] := List.length_eq_zero_iff.mp (by simpa using hlen)
    split at hw
    next hstatus =>
      cases hw
      rcases huse with hstage | ⟨n, hstage⟩
      · refine ⟨⟨rfl, ?_⟩, sent_of_flying_eq rfl ?_⟩ <;>
          simp [ClientView.completed, Stage.complete, hstage, flying]
      · refine ⟨⟨rfl, ?_⟩, sent_of_lost rfl ?_ fun hok => ?_⟩
        · simp [ClientView.completed, Stage.complete, hstage]
        · simp [ClientView.completed, Stage.complete, hstage, flying]
        · simp [flying, hstage, hsq, hstatus, beq_iff_eq.mp hok]
    · cases hw
  · cases hw

/-- **The client's end** after one operation. -/
theorem side_client {op : Op} {choice : ClientView.Choice} {r : op.Ans}
    (hrule : ClientRule cmds op v) (hg : transfersSucceed op v choice = true)
    (h : ClientSide v w) (hv : ClientView.handler op v choice = some (r, v'))
    (hw : w.client op choice = some w') :
    ClientSide v' w' ∧ Sent v v' w w' (Sys.callsSucceed op v choice) := by
  unfold ClientView.handler at hv
  split at hv
  · split at hv <;> cases hv <;> cases hw <;> exact ⟨h, sent_of_flying_eq rfl rfl⟩
  · cases hv; cases hw; exact side_writePage hrule h
  · cases hv; cases hw; exact side_note hrule h
  · cases hv; cases hw; exact ⟨h, sent_of_flying_eq rfl rfl⟩
  · cases hv; cases hw; exact ⟨h, sent_of_flying_eq rfl rfl⟩
  · cases hv; cases hw; exact ⟨h, sent_of_flying_eq rfl rfl⟩
  · cases hv; cases hw; exact ⟨h, sent_of_flying_eq rfl rfl⟩
  · cases hv; exact side_post hrule h hw
  · cases hv; cases hw; exact ⟨h, sent_of_flying_eq rfl rfl⟩
  · split at hv
    next wc =>
      split at hv
      next k rest hout => cases hv; exact side_poll hrule h hout hw
      · cases hv
    next p _ hp =>
      cases p with
      | entry wc => exact (hp wc rfl).elim
      | _ => simp [transfersSucceed] at hg
  · cases hv

/-- The client's operations leave the server's end alone. -/
theorem Wire.client_frame {op : Op} {choice : ClientView.Choice}
    (h : w.client op choice = some w') :
    w'.serverPage = w.serverPage ∧ w'.recvs = w.recvs ∧ w'.recvCq = w.recvCq := by
  unfold Wire.client at h
  split at h
  · cases h; exact ⟨rfl, rfl, rfl⟩
  · cases h; split <;> exact ⟨rfl, rfl, rfl⟩
  · split at h
    · split at h <;> cases h
      exact ⟨rfl, rfl, rfl⟩
    · cases h
  · cases h; exact ⟨rfl, rfl, rfl⟩

end Client

/-! ### The server's operations -/

section Server

variable {v v' : ServerView} {w w' : Wire} {pending : List Notification}

theorem ServerSide.congr (h : ServerSide v w pending) (hpage : w'.serverPage = w.serverPage)
    (hrecvs : w'.recvs = w.recvs) (hcq : w'.recvCq = w.recvCq) : ServerSide v w' pending := by
  simpa only [ServerSide, hpage, hrecvs, hcq] using h

/-- The server's operations leave the client's end, and both pages, alone. -/
theorem Wire.server_frame {op : Op} {choice : ServerView.Choice}
    (h : w.server op choice = some w') :
    w'.clientPage = w.clientPage ∧ w'.serverPage = w.serverPage ∧ w'.sq = w.sq := by
  unfold Wire.server at h
  split at h
  · cases h; split <;> exact ⟨rfl, rfl, rfl⟩
  · split at h
    · split at h <;> cases h
      exact ⟨rfl, rfl, rfl⟩
    · cases h
  · cases h
  · cases h; exact ⟨rfl, rfl, rfl⟩

theorem side_postRecv {wr : IbvRecvWr} {r : CRet} (hrule : ServerRule (.ibvPostRecv wr) v)
    (h : ServerSide v w pending) (hw : w.server (.ibvPostRecv wr) (.ret r) = some w') :
    ServerSide (if r.isOk then v.posted else v) w' pending := by
  have hstage : v.stage = .idle := hrule.2
  cases hw
  cases r.isOk with
  | false => exact h
  | true =>
    simp only [ServerSide, hstage] at h
    obtain ⟨hrecvs, hcq, hpending⟩ := h
    exact .inl ⟨by simp [hrecvs], hcq, hpending⟩

theorem side_pollRecv {p : PollRet} (hrule : ServerRule (.ibvPollCq .recv) v)
    (h : ServerSide v w pending) (hw : w.server (.ibvPollCq .recv) (.polled p) = some w') :
    ServerSide (v.polled p) w' pending := by
  have hstage : v.stage = .waiting := hrule.2
  cases p with
  | entry wc =>
    simp only [Wire.server] at hw
    split at hw
    next wc' rest hcq =>
      split at hw
      next hwc =>
        cases hw
        simp only [ServerSide, hstage, hcq] at h
        rcases h with ⟨-, hnil, -⟩ | ⟨hrecvs, wc'', n, hone, hpending, hann, hpage⟩
        · cases hnil
        · cases hone
          exact ⟨hrecvs, rfl, n, hpending, hwc ▸ hann, hpage⟩
      · cases hw
    · cases hw
  | _ => cases hw; exact h

theorem side_sawPage {buf : MemBuffer} (hrule : ServerRule (.readPage buf) v)
    (h : ServerSide v w pending) : ServerSide (v.sawPage w.serverPage) w pending := by
  obtain ⟨-, wc, hstage, -⟩ := hrule
  simp only [ServerSide, hstage] at h
  simpa [ServerView.sawPage, hstage, ServerSide] using h

theorem side_decoded {n : Notification} (hrule : ServerRule (.observe (.decoded n)) v)
    (h : ServerSide v w pending) :
    pending = [n] ∧ ServerSide (v.note (.decoded n)) w [] := by
  obtain ⟨hrecvs, hcq, hpending⟩ := h.pending_of_yields hrule.2
  exact ⟨hpending, hrecvs, hcq, rfl⟩

/-- **The server's end** after one operation that does not read the page. -/
theorem side_server {op : Op} {choice : ServerView.Choice} {r : op.Ans}
    (hrule : ServerRule op v) (h : ServerSide v w pending)
    (hv : ServerView.handler op v choice = some (r, v'))
    (hw : w.server op choice = some w') :
    ∃ pending', ServerSide v' w' pending' ∧ v'.decoded ++ pending' = v.decoded ++ pending := by
  unfold ServerView.handler at hv
  split at hv
  next r' =>
    cases hv
    refine ⟨pending, side_postRecv hrule h hw, ?_⟩
    split <;> rfl
  next p =>
    cases hv
    refine ⟨pending, side_pollRecv hrule h hw, ?_⟩
    cases p <;> rfl
  · cases hw
  next o =>
    cases hv
    cases hw
    cases o with
    | decoded n =>
      obtain ⟨rfl, hside⟩ := side_decoded hrule h
      exact ⟨[], hside, List.append_nil _⟩
    | _ => exact ⟨pending, h, rfl⟩
  · cases hv; cases hw; exact ⟨pending, h, rfl⟩
  · cases hv; cases hw; exact ⟨pending, h, rfl⟩
  · cases hv; cases hw; exact ⟨pending, h, rfl⟩
  · cases hv; cases hw; exact ⟨pending, h, rfl⟩
  · cases hv

end Server

/-! ### The connection's steps -/

section Connection

variable {v : ClientView} {u : ServerView} {w w' : Wire} {pending : List Notification}

theorem ClientSide.congr (h : ClientSide v w) (hclient : w'.clientPage = w.clientPage)
    (hserver : w'.serverPage = w.serverPage) (hsq : w'.sq = w.sq) : ClientSide v w' := by
  simpa only [ClientSide, hclient, hserver, hsq] using h

theorem flying_congr (hsq : w'.sq = w.sq) : flying v w' = flying v w := by
  simp only [flying, hsq]

/-- The request that is carried out next is the only one: a transfer while the page is not in use,
or the write of the notification that the page holds. -/
theorem ClientSide.oldest {before after : List Flight} {f : Flight} (h : ClientSide v w)
    (ho : Wire.oldest w.sq = some (before, f, after)) :
    (w.sq = [f] ∧ before = [] ∧ after = [] ∧ f.status = none) ∧
      ((v.stage = .idle ∧ f.wr.opcode ≠ .rdmaWriteWithImm) ∨
        ∃ n, v.stage = .posted n ∧ f.wr.opcode = .rdmaWriteWithImm ∧
          f.wr.immData = htonl (UInt16.ofNat n.serializedSize).toUInt32 ∧
          w.clientPage.StartsWith n.serialize ∧
          ∀ i : Fin cpuBufferBaseSize, i < f.placed → w.serverPage i = w.clientPage i) := by
  have hone {g : Flight} (hsq : w.sq = [g]) :
      w.sq = [f] ∧ before = [] ∧ after = [] ∧ f.status = none ∧ g = f := by
    rw [hsq, Wire.oldest] at ho
    split at ho
    next hstatus => cases ho; exact ⟨hsq, rfl, rfl, hstatus, rfl⟩
    · cases ho
  obtain ⟨-, hside⟩ := h
  split at hside
  next hstage =>
    cases hsq : w.sq with
    | nil => rw [hsq] at ho; cases ho
    | cons g gs =>
      obtain ⟨hg, hop⟩ := hside g (by simp [hsq])
      obtain ⟨hf, hb, ha, hstatus, rfl⟩ := hone hg
      exact ⟨⟨hsq ▸ hf, hb, ha, hstatus⟩, .inl ⟨hstage, hop⟩⟩
  · rw [hside.1] at ho; cases ho
  · rw [hside.1] at ho; cases ho
  next n hstage =>
    obtain ⟨hpage, g, hg, hop, himm, hplaced⟩ := hside
    obtain ⟨hf, hb, ha, hstatus, rfl⟩ := hone hg
    exact ⟨⟨hf, hb, ha, hstatus⟩, .inr ⟨n, hstage, hop, himm, hpage, hplaced hstatus⟩⟩

/-- **Bytes land.** Nothing is unread, so they land on nothing. -/
theorem side_place {n : ℕ} (hc : ClientSide v w) (hs : ServerSide u w pending)
    (hunread : w.recvCq = [] ∧ ∀ wc, u.stage ≠ .polled wc) (hw : w.place n = some w') :
    ClientSide v w' ∧ ServerSide u w' pending ∧ flying v w' = flying v w := by
  unfold Wire.place at hw
  split at hw
  next before f after ho =>
    split at hw
    next hop =>
      cases hw
      obtain ⟨⟨hsq, rfl, rfl, hstatus⟩, ⟨-, hne⟩ | ⟨m, hstage, -, himm, hpage, hplaced⟩⟩ :=
        hc.oldest ho
      · exact absurd hop.1 hne
      · refine ⟨⟨by simpa [hsq] using hc.1, ?_⟩, ?_, ?_⟩
        · simp only [hstage, List.nil_append]
          exact ⟨hpage, _, rfl, hop.1, himm, fun _ => Page.place_agree hplaced⟩
        · unfold ServerSide at hs ⊢
          split at hs
          · exact hs
          · rcases hs with hs | ⟨-, wc, m', hcq, -⟩
            · exact .inl hs
            · rw [hunread.1] at hcq; cases hcq
          next wc hpolled => exact absurd hpolled (hunread.2 wc)
          · exact hs
        · simp [flying, hstage, hsq]
    · cases hw
  · cases hw

/-- **A request is carried out.** A notification that consumes a receive is the only one pending. -/
theorem side_finish (hc : ClientSide v w) (hs : ServerSide u w pending)
    (hw : w.finish = some w') :
    ClientSide v w' ∧ ∃ pending', ServerSide u w' pending' ∧
      pending' ++ flying v w' = pending ++ flying v w := by
  unfold Wire.finish at hw
  split at hw
  next before f after ho =>
    obtain ⟨⟨hsq, rfl, rfl, hstatus⟩, ⟨hstage, hne⟩ | ⟨m, hstage, hop, himm, hpage, hplaced⟩⟩ :=
      hc.oldest ho
    · simp only [hne, if_false, Option.some.injEq] at hw
      subst hw
      refine ⟨⟨by simpa [hsq] using hc.1, ?_⟩, pending, hs, ?_⟩
      · simp [hstage, hne]
      · simp [flying, hstage]
    · simp only [hop, if_true] at hw
      split at hw
      next recvs hrecvs =>
        cases hw
        have hall : ∀ i : Fin cpuBufferBaseSize,
            w.serverPage.place w.clientPage f.placed (cpuBufferBaseSize - f.placed) i =
              w.clientPage i := fun i => Page.place_agree hplaced i (by omega)
        refine ⟨⟨by simpa [hsq] using hc.1, ?_⟩, ?_⟩
        · simp only [hstage, List.nil_append]
          exact ⟨hpage, _, rfl, hop, himm, nofun⟩
        · unfold ServerSide at hs
          rw [hrecvs] at hs
          split at hs
          · cases hs.1
          next hwaiting =>
            rcases hs with ⟨hone, hcq, rfl⟩ | ⟨hzero, -⟩
            · cases hone
              refine ⟨[m], ?_, by simp [flying, hstage, hsq, hstatus]⟩
              rw [ServerSide, hwaiting, hcq]
              exact .inr ⟨rfl, _, m, rfl, rfl, ⟨rfl, himm⟩, hpage.congr fun i => (hall i).symm⟩
            · cases hzero
          · cases hs.1
          · cases hs.1
      · cases hw
  · cases hw

/-- **A request fails.** What it carried stays with the client until its completion is polled. -/
theorem side_fail {status : UInt32} (hc : ClientSide v w) (hs : ServerSide u w pending)
    (hw : w.fail status = some w') :
    ClientSide v w' ∧ ServerSide u w' pending ∧ flying v w' = flying v w := by
  unfold Wire.fail at hw
  split at hw
  next before f after ho =>
    split at hw
    · cases hw
    next hne =>
      cases hw
      obtain ⟨⟨hsq, rfl, rfl, hstatus⟩, ⟨hstage, hop⟩ | ⟨m, hstage, hop, himm, hpage, -⟩⟩ :=
        hc.oldest ho
      · refine ⟨⟨by simpa [hsq] using hc.1, ?_⟩, hs, ?_⟩
        · simp [hstage, hop]
        · simp [flying, hstage]
      · refine ⟨⟨by simpa [hsq] using hc.1, ?_⟩, hs, ?_⟩
        · simp only [hstage, List.nil_append]
          exact ⟨hpage, _, rfl, hop, himm, nofun⟩
        · simp [flying, hstage, hsq, hstatus, hne]
  · cases hw

end Connection

end RdmaTransport
