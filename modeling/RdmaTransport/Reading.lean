import RdmaTransport.Rdma

/-!
# What a page is read as

A receiver decodes the first bytes of its page, as many as the immediate says, and whatever follows
the value is dropped. The format is exact: bytes are read as a value if and only if they start
with the encoding of the value, and a part of an encoding is read as nothing at all. So a peer can
make a receiver see a notification only by putting its encoding into the page, and an immediate
that does not fit the page's contents can make it see less, but nothing else.

## Main definitions

* `Arrival`, `Arrival.outcome` — what a card answers to one `handle_notification`, and its outcome

## Main results

* `Notification.deserialize_eq_ok_iff` — what is accepted
* `Arrival.outcome_eq_ok_iff` — when `handle_notification` returns a notification
* `Arrival.outcome_of_startsWith` — one notification in the page, under every immediate
-/

namespace RdmaTransport

open Interaction

/-! ### The format is exact -/

theorem exact_u8Codec : u8Codec.Exact where
  sound {bs rest b} h := by
    cases bs with
    | nil => cases h
    | cons c bs => cases h; exact ⟨trivial, rfl⟩
  final {bs e} more h he := by
    cases bs with
    | nil => cases h; exact absurd rfl he
    | cons c bs => cases h

theorem exact_u32Codec : u32Codec.Exact :=
  (Codec.Exact.le 4).map _ _ _ fun v (h : v < 256 ^ 4) => UInt32.toNat_ofNat_of_lt' h

theorem Notification.exact : Notification.codec.Exact :=
  (exact_u32Codec.prod exact_u8Codec.seq.option).map _ _ _ fun _ _ => rfl

/-! ### What is accepted -/

/-- A shorter slice is a part of a longer one. -/
theorem Page.slice_isPrefix {p : Page} {n m : ℕ} {hn : n ≤ cpuBufferBaseSize}
    {hm : m ≤ cpuBufferBaseSize} (h : n ≤ m) : p.slice n hn <+: p.slice m hm := by
  have htake : p.slice n hn = (p.slice m hm).take n := by
    refine List.ext_getElem (by simp [h]) ?_
    intro i h₁ h₂
    simp [Page.slice]
  rw [htake]
  exact List.take_prefix _ _

section Accepted

variable {α : Type} {c : Codec α} {a : α} {bs : List UInt8}

/-- What follows the value is dropped. -/
theorem map_fst_decode_eq_ok_iff (hc : c.Exact) :
    (c.decode bs).map Prod.fst = .ok a ↔ c.Fits a ∧ c.encode a <+: bs := by
  constructor
  · intro h
    cases hdec : c.decode bs with
    | error e => rw [hdec] at h; cases h
    | ok r =>
      obtain ⟨b, rest⟩ := r
      rw [hdec] at h
      cases h
      obtain ⟨ha, rfl⟩ := hc.decode_eq_ok_iff.mp hdec
      exact ⟨ha, List.prefix_append _ _⟩
  · rintro ⟨ha, rest, rfl⟩
    rw [hc.decode_eq_ok_iff.mpr ⟨ha, rfl⟩]
    rfl

/-- A part of an encoding is refused because the bytes run out. -/
theorem map_fst_decode_of_isPrefix (hc : c.Exact) (ha : c.Fits a) (hbs : bs <+: c.encode a)
    (hlt : bs.length < (c.encode a).length) : (c.decode bs).map Prod.fst = .error .eof := by
  have hne : bs ≠ c.encode a := fun h => absurd (congrArg List.length h) (Nat.ne_of_lt hlt)
  rw [hc.decode_of_isPrefix ha hbs hne]
  rfl

end Accepted

namespace Notification

variable {n : Notification} {bs : List UInt8}

/-- **Notifications**: what is accepted starts with the encoding of what it is read as. -/
theorem deserialize_eq_ok_iff (h : bs.length ≤ 2 ^ 64) :
    deserialize bs = .ok n ↔ n.serialize <+: bs := by
  rw [deserialize, map_fst_decode_eq_ok_iff exact]
  refine and_iff_right_of_imp ?_
  intro hn
  exact fits_of_length (hn.length_le.trans h)

theorem deserialize_of_isPrefix (h : n.serializedSize ≤ 2 ^ 64) (hbs : bs <+: n.serialize)
    (hlt : bs.length < n.serializedSize) : deserialize bs = .error .eof :=
  map_fst_decode_of_isPrefix exact (fits_of_length h) hbs hlt

end Notification

/-! ### One notification -/

/-- What the card answers to one `handle_notification`, and the page it reads. -/
structure Arrival where
  /-- The post returns this. -/
  post : CRet
  /-- The poll gives this back. -/
  poll : PollRet
  /-- The page, when it is read. -/
  page : Page

namespace Arrival

variable (a : Arrival) (cpuMr : IbvMr) (cpuBuffer : MemBuffer)

/-- The environment. -/
def answer : (op : Op) → Unit → Option (op.Ans × Unit)
  | .ibvPostRecv _, _ => some (a.post, ())
  | .ibvPollCq .recv, _ => some (a.poll, ())
  | .readPage _, _ => some (a.page, ())
  | _, _ => none

/-- How `handle_notification` ends. -/
def outcome : Outcome iface Unit (Except TransportErrors Notification) :=
  Prog.interp a.answer (Server.handleNotification cpuMr cpuBuffer).run ()

variable {a} {cpuMr cpuBuffer} {n : Notification} {wc : IbvWc} {e : TransportErrors}

/-- The outcome, along the calls. -/
theorem outcome_eq (a : Arrival) (cpuMr : IbvMr) (cpuBuffer : MemBuffer) :
    a.outcome cpuMr cpuBuffer =
      match rdmaCall "ibv_post_recv" a.post with
      | .error e => .done (.error e) ()
      | .ok _ =>
        match compResult "handle_request" "poll_recv_comp" a.poll with
        | .error e => .done (.error e) ()
        | .ok wc =>
          if wc.opcode = ibvWcRecvRdmaWithImm then
            Prog.interp a.answer (Server.decodePage a.page wc) ()
          else .done (.ok .zero) () := by
  rw [outcome, Server.run_handleNotification, Prog.interp_vis_some rfl]
  cases rdmaCall "ibv_post_recv" a.post with
  | error e => rfl
  | ok _ =>
    simp only []
    rw [Prog.interp_vis_some rfl]
    cases compResult "handle_request" "poll_recv_comp" a.poll with
    | error e => rfl
    | ok wc =>
      by_cases hop : wc.opcode = ibvWcRecvRdmaWithImm
      · simp only [hop, if_true]
        rw [Prog.interp_vis_some rfl]
      · simp only [hop, if_false, Prog.interp_ret]

theorem interp_decodePage_eq_ok_iff :
    Prog.interp a.answer (Server.decodePage a.page wc) () = .done (.ok n) () ↔
      ∃ h : (ntohl wc.immData).toNat ≤ cpuBufferBaseSize,
        n.serialize <+: a.page.slice (ntohl wc.immData).toNat h := by
  rw [Server.decodePage]
  split
  next hle =>
    have hread : Notification.deserialize (a.page.slice (ntohl wc.immData).toNat hle) = .ok n ↔
        n.serialize <+: a.page.slice (ntohl wc.immData).toNat hle := by
      refine Notification.deserialize_eq_ok_iff ?_
      rw [Page.length_slice]
      exact hle.trans (by decide)
    rw [exists_prop_of_true hle, ← hread, Prog.interp_ret]
    cases Notification.deserialize (a.page.slice (ntohl wc.immData).toNat hle) with
    | error e => simp [Except.mapError, mapErr]
    | ok m => simp [Except.mapError, mapErr]
  next hle =>
    refine iff_of_false ?_ ?_
    · intro h
      cases h
    · rintro ⟨h, -⟩
      exact hle h

/-- **When `handle_notification` returns a notification.** The post was accepted and a success
completion polled, and either it is of another opcode and the notification is the default one, or
the immediate is a size of at most a page and so much of the page starts with the encoding of the
notification. -/
theorem outcome_eq_ok_iff (a : Arrival) (cpuMr : IbvMr) (cpuBuffer : MemBuffer) (n : Notification) :
    a.outcome cpuMr cpuBuffer = .done (.ok n) () ↔
      a.post.isOk = true ∧ ∃ wc, a.poll = .entry wc ∧ wc.status = ibvWcSuccess ∧
        ((wc.opcode ≠ ibvWcRecvRdmaWithImm ∧ n = .zero) ∨
          (wc.opcode = ibvWcRecvRdmaWithImm ∧
            ∃ h : (ntohl wc.immData).toNat ≤ cpuBufferBaseSize,
              n.serialize <+: a.page.slice (ntohl wc.immData).toNat h)) := by
  rw [outcome_eq]
  cases hpost : a.post.isOk with
  | false =>
    obtain ⟨e, he⟩ := rdmaCall_of_not_isOk "ibv_post_recv" hpost
    simp [he]
  | true =>
    rw [rdmaCall_of_isOk hpost]
    cases hpoll : a.poll with
    | notFound => simp [compResult]
    | negative code => simp [compResult]
    | entry wc =>
      by_cases hstatus : wc.status = ibvWcSuccess
      · simp only [compResult_entry_of_success hstatus, PollRet.entry.injEq, true_and,
          exists_eq_left', hstatus]
        by_cases hop : wc.opcode = ibvWcRecvRdmaWithImm
        · simp only [hop, if_true, ne_eq, not_true, false_and, false_or, true_and]
          exact interp_decodePage_eq_ok_iff
        · simp [hop, eq_comm]
      · obtain ⟨e, he⟩ := compResult_entry_of_failed "handle_request" "poll_recv_comp" hstatus
        simp only [he, PollRet.entry.injEq, exists_eq_left', hstatus, false_and, and_false]
        simp

/-- **One notification in the page, under every immediate.** An immediate below the size of its
encoding is an error, because the bytes run out; any other of at most a page gives the notification;
and a larger one aborts the task. It is never read as another notification. -/
theorem outcome_of_startsWith (a : Arrival) (cpuMr : IbvMr) (cpuBuffer : MemBuffer)
    {n : Notification} {wc : IbvWc} (hpost : a.post.isOk = true) (hpoll : a.poll = .entry wc)
    (hstatus : wc.status = ibvWcSuccess) (hop : wc.opcode = ibvWcRecvRdmaWithImm)
    (hpage : a.page.StartsWith n.serialize) :
    a.outcome cpuMr cpuBuffer =
      if (ntohl wc.immData).toNat < n.serializedSize then
        .done (.error (.opsFailed "handle_notification" "io error: unexpected end of file")) ()
      else if (ntohl wc.immData).toNat ≤ cpuBufferBaseSize then .done (.ok n) ()
      else .stuck (.panic (sliceMsg (ntohl wc.immData).toNat)) () := by
  obtain ⟨hfits, hslice⟩ := hpage
  have hsize : n.serializedSize ≤ cpuBufferBaseSize := hfits
  rw [outcome_eq, rdmaCall_of_isOk hpost, hpoll]
  simp only [compResult_entry_of_success hstatus, hop, if_true, Server.decodePage]
  generalize (ntohl wc.immData).toNat = size
  by_cases hlt : size < n.serializedSize
  · have hle : size ≤ cpuBufferBaseSize := hlt.le.trans hsize
    have hpart : a.page.slice size hle <+: n.serialize := by
      rw [← hslice]
      exact Page.slice_isPrefix hlt.le
    have hread : Notification.deserialize (a.page.slice size hle) = .error .eof :=
      Notification.deserialize_of_isPrefix (hsize.trans (by decide)) hpart
        (by rwa [Page.length_slice])
    rw [if_pos hlt, dif_pos hle, hread]
    rfl
  · rw [if_neg hlt]
    by_cases hle : size ≤ cpuBufferBaseSize
    · have hread : Notification.deserialize (a.page.slice size hle) = .ok n := by
        refine (Notification.deserialize_eq_ok_iff ?_).mpr ?_
        · rw [Page.length_slice]
          exact hle.trans (by decide)
        · rw [← hslice]
          exact Page.slice_isPrefix (Nat.le_of_not_lt hlt)
      rw [dif_pos hle, if_pos hle, hread]
      rfl
    · rw [dif_neg hle, if_neg hle]
      rfl

/-- Nine of the fourteen bytes of a notification. -/
theorem outcome_of_startsWith_nine :
    (⟨.ret 0 0, .entry ⟨ibvWcSuccess, ibvWcRecvRdmaWithImm, htonl 9⟩,
        Page.zero.write (Notification.serialize ⟨0, some [7]⟩)⟩ : Arrival).outcome
        ⟨4096, cpuBufferBaseSize, 1, 1⟩ ⟨4096⟩ =
      .done (.error (.opsFailed "handle_notification" "io error: unexpected end of file")) () := by
  have hsize : (⟨0, some [7]⟩ : Notification).serializedSize = 14 :=
    Notification.serializedSize_some 0 [7]
  refine (outcome_of_startsWith _ _ _ rfl rfl rfl rfl (Page.startsWith_write _ ?_)).trans
    (if_pos ?_)
  · exact hsize.le.trans (by decide)
  · rw [ntohl_htonl, hsize]
    decide

end Arrival

end RdmaTransport
