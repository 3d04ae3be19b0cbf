import RdmaTransport.Internal.Memory
import RdmaTransport.Vllm.Client

/-!
# What a notification write carries

`write_metadata` sends the page of slot `offset` to the same slot of the peer, with slot and size
packed into the immediate. `handle_notification` takes the whole immediate for a size and decodes
from the start of the page, and a `MemBuffer` is one slot large. The two agree on slot `0` and on no
other: `slotAgrees_iff`.

On slot `0`, where every notification goes, what is sent is what is handled, for every notification
that fits a page and whatever the two pages held before: `roundTrips`.

## Main definitions

* `Sender`, `Receiver`, `landed` — the two sides, and a write that has landed
* `SlotAgrees` — `write_metadata` and `handle_notification` agree on a slot and a size
* `RoundTrips` — a task that sends a notification

## Main results

* `slotAgrees_iff` — the slots they agree on
* `roundTrips` — the notifications that are sent
-/

namespace RdmaTransport

open Interaction

namespace Slots

/-! ### The sender -/

/-- The sender's memory, and the work requests of its calls. What its calls return is left open. -/
structure Sender where
  /-- Its memory, by address. -/
  mem : ℕ → UInt8
  /-- What it has handed to `ibv_post_send`, whether or not that was accepted. -/
  handed : List IbvSendWr
  /-- Its completion table. -/
  reqs : CompletionReqs
  /-- What `ibv_post_send` returns. -/
  postRet : CRet
  /-- What `poll_cq` gives back. -/
  pollRet : PollRet
  /-- What `rdma_disconnect` returns. -/
  discRet : CRet
  /-- Whether the build goes on when a sum overflows. -/
  wraps : Bool

/-- The page is written: what fits of the bytes, from the start. -/
def Sender.writePage (s : Sender) (buf : MemBuffer) (bytes : List UInt8) : Sender :=
  { s with
    mem := copyRange s.mem (fun i => bytes.getD i 0) buf.ptr.toNat 0
      (min bytes.length cpuBufferBaseSize) }

/-- The environment of the sender. -/
def Sender.answer : (op : Op) → Sender → Option (op.Ans × Sender)
  | .ibvPostSend wr, s => some (s.postRet, { s with handed := s.handed ++ [wr] })
  | .ibvPollCq .send, s => some (s.pollRet, s)
  | .rdmaDisconnect, s => some (s.discRet, s)
  | .writePage buf bytes, s => some ((), s.writePage buf bytes)
  | .lockReqs, s => some (s.reqs, s)
  | .putReqs reqs, s => some ((), { s with reqs := reqs })
  | .unlockReqs, s => some ((), s)
  | .overflow, s => if s.wraps then some ((), s) else none
  | .observe _, s => some ((), s)
  | _, _ => none

/-- The run of a task of the sender. -/
abbrev Sender.run {α : Type} (s : Sender) (p : Task α) : Outcome iface Sender α :=
  Prog.interp Sender.answer p s

/-! ### The receiver -/

/-- The receiver's memory, and the completion it polls next. -/
structure Receiver where
  /-- Its memory, by address. -/
  mem : ℕ → UInt8
  /-- The completion. -/
  wc : IbvWc

/-- The environment of the receiver. -/
def Receiver.answer : (op : Op) → Receiver → Option (op.Ans × Receiver)
  | .ibvPostRecv _, r => some (.ret 0 0, r)
  | .ibvPollCq .recv, r => some (.entry r.wc, r)
  | .readPage buf, r => some (fun i => r.mem (buf.ptr.toNat + i), r)
  | _, _ => none

/-- `handle_notification`. -/
abbrev Receiver.handle (r : Receiver) (mr : IbvMr) (buf : MemBuffer) :
    Outcome iface Receiver (Except TransportErrors Notification) :=
  Prog.interp Receiver.answer (Server.handleNotification mr buf).run r

/-- The receiver once a write with immediate has landed whole and completed. -/
def Receiver.written (wr : IbvSendWr) (src dst : ℕ → UInt8) : Receiver where
  mem := copyRange dst src wr.remoteAddr.toNat wr.sge.addr.toNat wr.sge.length.toNat
  wc := ⟨ibvWcSuccess, ibvWcRecvRdmaWithImm, wr.immData⟩

/-- A request of the sender lands if it is a write with immediate and has the keys of the two
pages. -/
def landed (cpuMr peerMr : IbvMr) (wr : IbvSendWr) (src dst : ℕ → UInt8) : Option Receiver :=
  if wr.opcode = .rdmaWriteWithImm ∧ wr.sge.lkey = cpuMr.lkey ∧ wr.rkey = peerMr.rkey then
    some (.written wr src dst)
  else none

theorem landed_metadataWr (cpuMr peerMr : IbvMr) (cpuBuffer peerBuffer : MemBuffer) (size : UInt16)
    (src dst : ℕ → UInt8) :
    landed cpuMr peerMr (metadataWr ⟨peerBuffer.ptr, peerMr.rkey⟩ cpuMr cpuBuffer size) src dst =
      some (.written (metadataWr ⟨peerBuffer.ptr, peerMr.rkey⟩ cpuMr cpuBuffer size) src dst) :=
  if_pos ⟨rfl, rfl, rfl⟩

/-- What `handle_notification` returns for the bytes it decodes. -/
def decodeBytes (bytes : List UInt8) : Except TransportErrors Notification :=
  mapErr "handle_notification" ((Notification.deserialize bytes).mapError decodeErrorMsg)

/-- **Handling.** With a size as the immediate, so many bytes of the page are decoded. -/
theorem handle_of_imm {r : Receiver} {size : UInt16} (mr : IbvMr) (buf : MemBuffer)
    (hsize : size.toNat ≤ cpuBufferBaseSize)
    (hwc : r.wc = ⟨ibvWcSuccess, ibvWcRecvRdmaWithImm, htonl size.toUInt32⟩) :
    r.handle mr buf = .done (decodeBytes (readBytes r.mem buf.ptr.toNat size.toNat)) r := by
  obtain ⟨mem, wc⟩ := r
  obtain rfl : wc = _ := hwc
  have himm : (ntohl (htonl size.toUInt32)).toNat = size.toNat := by
    rw [ntohl_htonl, UInt16.toNat_toUInt32]
  have hpost : rdmaCall "ibv_post_recv" (.ret 0 0) = .ok () := rfl
  have hcomp : compResult "handle_request" "poll_recv_comp" (.entry
      ⟨ibvWcSuccess, ibvWcRecvRdmaWithImm, htonl size.toUInt32⟩) = .ok _ :=
    compResult_entry_of_success rfl
  rw [Receiver.handle, Server.run_handleNotification, Prog.interp_vis_some rfl]
  simp only [hpost]
  rw [Prog.interp_vis_some rfl]
  simp only [hcomp, if_true]
  rw [Prog.interp_vis_some rfl]
  simp only [Server.decodePage, himm, hsize, dif_pos]
  rfl

/-! ### One write -/

variable {s : Sender}

theorem run_writePage_sender {α : Type} (s : Sender) (buf : MemBuffer) (bytes : List UInt8)
    (k : Unit → Task α) :
    s.run (Task.call (.writePage buf bytes) k) = (s.writePage buf bytes).run (k ()) := rfl

theorem run_observe_sender {α : Type} (s : Sender) (o : Observation) (k : Unit → Task α) :
    s.run (Task.call (.observe o) k) = s.run (k ()) := rfl

/-- Whatever the calls return, one request is handed to `ibv_post_send`. -/
theorem run_postAndPoll_sender (s : Sender) (wr : IbvSendWr) (op what : String) :
    ∃ r, s.run (postAndPoll wr op what).run =
      .done r { s with handed := s.handed ++ [wr] } := by
  rw [run_postAndPoll, Sender.run, Prog.interp_vis_some rfl]
  split
  · exact ⟨_, rfl⟩
  · exact ⟨_, rfl⟩

/-- A write followed by a rest that hands nothing over and leaves the memory alone. -/
theorem handed_postAndPoll_bind {α : Type} (s : Sender) (wr : IbvSendWr) (op what : String)
    {f : Except TransportErrors Unit → Task α}
    (hf : ∀ r (s' : Sender), (s'.run (f r)).state.handed = s'.handed ∧
      (s'.run (f r)).state.mem = s'.mem) :
    (s.run ((postAndPoll wr op what).run.bind f)).state.handed = s.handed ++ [wr] ∧
      (s.run ((postAndPoll wr op what).run.bind f)).state.mem = s.mem := by
  obtain ⟨r, hr⟩ := run_postAndPoll_sender s wr op what
  have hrun : s.run ((postAndPoll wr op what).run.bind f) =
      Sender.run { s with handed := s.handed ++ [wr] } (f r) := by
    rw [Sender.run] at hr ⊢
    rw [Prog.interp_bind, hr]
  rw [hrun]
  exact hf r _

/-- A sum that does not overflow is a sum; one that does may end the run. -/
theorem run_addU64_sender {α : Type} (s : Sender) (a b : UInt64) (f : UInt64 → Task α) :
    s.run ((Task.addU64 a b).bind f) = s.run (f (a + b)) ∨
      s.run ((Task.addU64 a b).bind f) = .stuck .overflow s := by
  by_cases hlt : a.toNat + b.toNat < 2 ^ 64
  · rw [Task.addU64_of_lt hlt]
    exact .inl rfl
  · rw [Task.addU64_of_ge hlt]
    cases hwraps : s.wraps with
    | true =>
      have hanswer : Sender.answer .overflow s = some ((), s) := by simp [Sender.answer, hwraps]
      exact .inl (Prog.interp_vis_some hanswer)
    | false =>
      have hanswer : Sender.answer .overflow s = none := by simp [Sender.answer, hwraps]
      exact .inr (Prog.interp_vis_none hanswer)

/-- The page of another slot than the first lies outside the buffer, also when its address wraps. -/
theorem not_contains_slot (buf : MemBuffer) {offset : UInt16} (h : offset ≠ 0) :
    ¬ buf.Contains (buf.ptr + offset.toUInt64 * UInt64.ofNat cpuBufferBaseSize)
      (UInt32.ofNat cpuBufferBaseSize).toNat := by
  have hoffset : offset.toNat ≠ 0 := fun hzero => h (UInt16.toNat_inj.mp hzero)
  have hlt := offset.toNat_lt
  have hptr := buf.ptr.toNat_lt
  have hslot : (offset.toUInt64 * UInt64.ofNat cpuBufferBaseSize).toNat = offset.toNat * 4096 := by
    rw [UInt64.toNat_mul, UInt16.toNat_toUInt64]
    exact Nat.mod_eq_of_lt (by change offset.toNat * 4096 < 2 ^ 64; omega)
  have hlen : (UInt32.ofNat cpuBufferBaseSize).toNat = 4096 := rfl
  rintro ⟨hlow, hhigh⟩
  rw [UInt64.toNat_add, hslot] at hlow hhigh
  rw [hlen, MemBuffer.getSize, cpuBufferBaseSize] at hhigh
  omega

/-- `write_metadata` fails before it has handed anything to `ibv_post_send`, or it hands over one
write from inside the sender's buffer to inside the receiver's, and once that has landed
`handle_notification` decodes just the bytes that the sender has at the slot. -/
def SlotAgrees (s : Sender) (dst : ℕ → UInt8) (cpuMr peerMr : IbvMr)
    (cpuBuffer peerBuffer : MemBuffer) (offset size : UInt16) : Prop :=
  let out := s.run
    (writeMetadata ⟨peerBuffer.ptr, peerMr.rkey⟩ cpuMr cpuBuffer offset size).run
  (∃ e s', out = .done (.error e) s' ∧ s'.handed = s.handed) ∨
    ∃ wr r, out.state.handed = s.handed ++ [wr] ∧
      cpuBuffer.Contains wr.sge.addr wr.sge.length.toNat ∧
      peerBuffer.Contains wr.remoteAddr wr.sge.length.toNat ∧
      landed cpuMr peerMr wr out.state.mem dst = some r ∧
      r.handle peerMr peerBuffer =
        .done (decodeBytes (readBytes s.mem
          (cpuBuffer.ptr.toNat + offset.toNat * cpuBufferBaseSize) size.toNat)) r

/-- **Other slots.** What is handed over leaves the sender's buffer, and an overflow is no error
that `write_metadata` returns. -/
theorem not_slotAgrees {dst : ℕ → UInt8} {cpuMr peerMr : IbvMr} {cpuBuffer peerBuffer : MemBuffer}
    {offset size : UInt16} (h : offset ≠ 0) :
    ¬ SlotAgrees s dst cpuMr peerMr cpuBuffer peerBuffer offset size := by
  have hne (wr : IbvSendWr) : s.handed ≠ s.handed ++ [wr] := by simp
  rw [SlotAgrees, run_writeMetadata]
  rcases run_addU64_sender s cpuBuffer.ptr
    (offset.toUInt64 * UInt64.ofNat cpuBufferBaseSize) _ with hrun | hrun <;> rw [hrun]
  swap
  · rintro (⟨e, s', hout, -⟩ | ⟨wr, r, hhanded, -⟩)
    · cases hout
    · exact hne wr hhanded
  rcases run_addU64_sender s peerBuffer.ptr
    (offset.toUInt64 * UInt64.ofNat cpuBufferBaseSize) _ with hrun | hrun <;> rw [hrun]
  swap
  · rintro (⟨e, s', hout, -⟩ | ⟨wr, r, hhanded, -⟩)
    · cases hout
    · exact hne wr hhanded
  obtain ⟨r, hr⟩ := run_postAndPoll_sender s
    ⟨⟨cpuBuffer.ptr + offset.toUInt64 * UInt64.ofNat cpuBufferBaseSize,
      UInt32.ofNat cpuBufferBaseSize, cpuMr.lkey⟩, .rdmaWriteWithImm, ibvSendSignaled,
      peerBuffer.ptr + offset.toUInt64 * UInt64.ofNat cpuBufferBaseSize, peerMr.rkey,
      htonl ((offset.toUInt32 <<< 16) + size.toUInt32)⟩ "write_metadata" "poll_write_comp"
  rw [hr]
  rintro (⟨e, s', hout, hhanded⟩ | ⟨wr, r, hhanded, hlocal, -⟩)
  · cases hout
    exact hne _ hhanded.symm
  · obtain rfl := List.singleton_inj.mp (List.append_cancel_left hhanded)
    exact not_contains_slot cpuBuffer h hlocal

/-- **The slots they agree on.** For every offset and every size up to a page, whatever the memories
hold and the calls return: `write_metadata` and `handle_notification` agree if and only if the
offset is zero. -/
theorem slotAgrees_iff (s : Sender) (dst : ℕ → UInt8) (cpuMr peerMr : IbvMr)
    (cpuBuffer peerBuffer : MemBuffer) (offset : UInt16) {size : UInt16}
    (hsize : size.toNat ≤ cpuBufferBaseSize) :
    SlotAgrees s dst cpuMr peerMr cpuBuffer peerBuffer offset size ↔ offset = 0 := by
  refine ⟨fun h => of_not_not fun hne => not_slotAgrees hne h, ?_⟩
  rintro rfl
  obtain ⟨r, hr⟩ := run_postAndPoll_sender s
    (metadataWr ⟨peerBuffer.ptr, peerMr.rkey⟩ cpuMr cpuBuffer size) "write_metadata"
    "poll_write_comp"
  have hpage (buf : MemBuffer) : buf.Contains buf.ptr (UInt32.ofNat cpuBufferBaseSize).toNat :=
    ⟨le_refl _, le_refl _⟩
  rw [SlotAgrees, writeMetadata_zero, hr]
  refine .inr ⟨_, _, rfl, hpage cpuBuffer, hpage peerBuffer, landed_metadataWr _ _ _ _ _ _ _, ?_⟩
  rw [handle_of_imm peerMr peerBuffer hsize rfl]
  have hread :
      readBytes (Receiver.written (metadataWr ⟨peerBuffer.ptr, peerMr.rkey⟩ cpuMr cpuBuffer size)
        s.mem dst).mem peerBuffer.ptr.toNat size.toNat =
      readBytes s.mem (cpuBuffer.ptr.toNat + (0 : UInt16).toNat * cpuBufferBaseSize)
        size.toNat := by
    rw [UInt16.toNat_zero, Nat.zero_mul, Nat.add_zero]
    exact readBytes_copyRange hsize
  exact congrArg (fun bytes => Outcome.done (decodeBytes bytes) _) hread

/-- A sender that goes on when a sum overflows, and whose calls succeed. -/
def plainSender : Sender :=
  ⟨fun _ => 0, [], .new 1024, .ret 0 0, .entry ⟨ibvWcSuccess, 1, 0⟩, .ret 0 0, true⟩

theorem slotAgrees_iff_first :
    SlotAgrees plainSender (fun _ => 0) ⟨4096, 4096, 1, 1⟩ ⟨8192, 4096, 2, 2⟩ ⟨4096⟩ ⟨8192⟩ 0 14 ↔
      (0 : UInt16) = 0 :=
  slotAgrees_iff plainSender (fun _ => 0) ⟨4096, 4096, 1, 1⟩ ⟨8192, 4096, 2, 2⟩ ⟨4096⟩ ⟨8192⟩ 0
    (by decide)

/-- On the second slot the write starts where the sender's buffer ends, lands where the receiver's
ends, and its immediate is no size of a page. -/
theorem second_slot_disagrees :
    ¬ SlotAgrees plainSender (fun _ => 0) ⟨4096, 4096, 1, 1⟩ ⟨8192, 4096, 2, 2⟩ ⟨4096⟩ ⟨8192⟩ 1
      14 :=
  not_slotAgrees (by decide)

/-! ### Whole notifications -/

/-- What the `Complete` arm and `disconnect` do with their notifications: serialise the notification
into the page, and send the page of slot `0` with the size of the notification. -/
def sendNotification (conn : Connection) (cpuMr : IbvMr) (cpuBuffer : MemBuffer)
    (notification : Notification) : Fallible Unit := do
  let size := notification.serializedSize
  let written ← (serializeInto cpuBuffer notification.serialize : Task _)
  Fallible.ofExcept (mapErr "disconnect" written)
  writeMetadata conn cpuMr cpuBuffer 0 (UInt16.ofNat size)

/-- A task that sends a notification: if it fits a page, one write is handed to `ibv_post_send` that
makes `handle_notification` return the notification once it has landed whole and completed, whatever
the memories held before; if not, none is. -/
def RoundTrips {α : Type} (p : Task α) (notification : Notification) (cpuMr peerMr : IbvMr)
    (peerBuffer : MemBuffer) : Prop :=
  ∀ (s : Sender) (dst : ℕ → UInt8),
    (notification.serializedSize ≤ cpuBufferBaseSize →
      ∃ wr r, (s.run p).state.handed = s.handed ++ [wr] ∧
        landed cpuMr peerMr wr (s.run p).state.mem dst = some r ∧
        r.handle peerMr peerBuffer = .done (.ok notification) r) ∧
    (¬ notification.serializedSize ≤ cpuBufferBaseSize → (s.run p).state.handed = s.handed)

/-- **What is sent is what is handled.** -/
theorem handle_written_writePage {notification : Notification}
    (h : notification.serializedSize ≤ cpuBufferBaseSize) (s : Sender) (dst : ℕ → UInt8)
    (cpuMr peerMr : IbvMr) (cpuBuffer peerBuffer : MemBuffer) {src : ℕ → UInt8}
    (hsrc : src = (s.writePage cpuBuffer notification.serialize).mem) :
    (Receiver.written (metadataWr ⟨peerBuffer.ptr, peerMr.rkey⟩ cpuMr cpuBuffer
      (UInt16.ofNat notification.serializedSize)) src dst).handle peerMr peerBuffer =
      .done (.ok notification) (.written (metadataWr ⟨peerBuffer.ptr, peerMr.rkey⟩ cpuMr cpuBuffer
        (UInt16.ofNat notification.serializedSize)) src dst) := by
  have hlen : notification.serialize.length ≤ cpuBufferBaseSize := h
  have hsize :
      (UInt16.ofNat notification.serializedSize).toNat = notification.serialize.length := by
    rw [UInt16.toNat_ofNat_of_lt' (lt_of_le_of_lt h (by decide))]
    rfl
  rw [handle_of_imm peerMr peerBuffer (by rw [hsize]; exact hlen) rfl, hsize]
  have hread : readBytes (Receiver.written (metadataWr ⟨peerBuffer.ptr, peerMr.rkey⟩ cpuMr cpuBuffer
      (UInt16.ofNat notification.serializedSize)) src dst).mem peerBuffer.ptr.toNat
      notification.serialize.length = notification.serialize := by
    refine (readBytes_copyRange hlen).trans ?_
    rw [hsrc, Sender.writePage, Nat.min_eq_left hlen]
    exact (readBytes_copyRange (le_refl _)).trans (readBytes_getD _ _)
  rw [hread, decodeBytes, Notification.deserialize_serialize h]
  rfl

section Tasks

variable {α : Type} {p : Task α} {notification : Notification} {cpuMr peerMr : IbvMr}
  {cpuBuffer peerBuffer : MemBuffer}

/-- It is enough that the page is written once and sent once. -/
theorem roundTrips_of_handed (cpuMr : IbvMr) (cpuBuffer : MemBuffer)
    (hfits : notification.serializedSize ≤ cpuBufferBaseSize → ∀ s : Sender,
      (s.run p).state.handed = s.handed ++ [metadataWr ⟨peerBuffer.ptr, peerMr.rkey⟩ cpuMr cpuBuffer
        (UInt16.ofNat notification.serializedSize)] ∧
      (s.run p).state.mem = (s.writePage cpuBuffer notification.serialize).mem)
    (hlong : ¬ notification.serializedSize ≤ cpuBufferBaseSize → ∀ s : Sender,
      (s.run p).state.handed = s.handed) : RoundTrips p notification cpuMr peerMr peerBuffer := by
  intro s dst
  refine ⟨fun h => ?_, fun h => hlong h s⟩
  obtain ⟨hhanded, hmem⟩ := hfits h s
  exact ⟨_, _, hhanded, landed_metadataWr _ _ _ _ _ _ _,
    handle_written_writePage h s dst cpuMr peerMr cpuBuffer peerBuffer hmem⟩

theorem run_sendNotification (conn : Connection) (cpuMr : IbvMr) (cpuBuffer : MemBuffer)
    (notification : Notification) :
    (sendNotification conn cpuMr cpuBuffer notification).run =
      Task.call (.writePage cpuBuffer notification.serialize) fun _ =>
        if notification.serializedSize ≤ cpuBufferBaseSize then
          (postAndPoll (metadataWr conn cpuMr cpuBuffer (UInt16.ofNat notification.serializedSize))
            "write_metadata" "poll_write_comp").run
        else .ret (.error (.opsFailed "disconnect" writeZeroMsg)) := by
  refine congrArg (Prog.vis (S := iface) _) (funext fun _ => ?_)
  have hlen : notification.serializedSize = notification.serialize.length := rfl
  simp only [Prog.pure_eq, hlen, ← writeMetadata_zero]
  split <;> rfl

theorem roundTrips_sendNotification (cpuMr peerMr : IbvMr) (cpuBuffer peerBuffer : MemBuffer)
    (notification : Notification) :
    RoundTrips (sendNotification ⟨peerBuffer.ptr, peerMr.rkey⟩ cpuMr cpuBuffer notification).run
      notification cpuMr peerMr peerBuffer := by
  refine roundTrips_of_handed cpuMr cpuBuffer (fun h s => ?_) fun h s => ?_
  · rw [run_sendNotification, run_writePage_sender, if_pos h]
    obtain ⟨r, hr⟩ := run_postAndPoll_sender (s.writePage cpuBuffer notification.serialize)
      (metadataWr ⟨peerBuffer.ptr, peerMr.rkey⟩ cpuMr cpuBuffer
        (UInt16.ofNat notification.serializedSize)) "write_metadata" "poll_write_comp"
    rw [hr]
    exact ⟨rfl, rfl⟩
  · rw [run_sendNotification, run_writePage_sender, if_neg h]
    rfl

/-- The record, the announcement and what follows it hand over one write and leave the page
alone. -/
theorem run_recordAndAnnounce_sender (s : Sender) (session : Session) (reqId : ReqId) :
    (s.run (Client.recordAndAnnounce session reqId)).state.handed =
        s.handed ++ [Client.announcementWr session reqId] ∧
      (s.run (Client.recordAndAnnounce session reqId)).state.mem = s.mem := by
  -- the lock and the store come before the write
  refine handed_postAndPoll_bind { s with reqs := s.reqs.record reqId } _ _ _ ?_
  intro r s'
  cases r <;> exact ⟨rfl, rfl⟩

theorem roundTrips_completeArm (session : Session) (peerMr : IbvMr) (peerBuffer : MemBuffer)
    (reqId : ReqId) :
    RoundTrips (Client.completeArm { session with cpuConn := ⟨peerBuffer.ptr, peerMr.rkey⟩ } reqId)
      (Client.announcement reqId) session.cpuMr peerMr peerBuffer := by
  refine roundTrips_of_handed session.cpuMr session.cpuBuffer (fun h s => ?_) fun h s => ?_
  · rw [Client.completeArm_of_fits h, run_writePage_sender]
    exact run_recordAndAnnounce_sender _ _ _
  · rw [Client.completeArm_of_not_fits h]
    rfl

theorem roundTrips_disconnect (cpuMr peerMr : IbvMr) (cpuBuffer peerBuffer : MemBuffer) :
    RoundTrips (Client.disconnect ⟨peerBuffer.ptr, peerMr.rkey⟩ cpuMr cpuBuffer).run .complete
      cpuMr peerMr peerBuffer := by
  have hsize : Notification.complete.serializedSize = 5 := Notification.serializedSize_none 1
  refine roundTrips_of_handed cpuMr cpuBuffer (fun _ s => ?_) fun h s => ?_
  · rw [Client.run_disconnect, run_writePage_sender, run_observe_sender, writeMetadata_zero, hsize]
    refine handed_postAndPoll_bind (s.writePage cpuBuffer Notification.complete.serialize) _ _ _ ?_
    intro r s'
    cases r <;> exact ⟨rfl, rfl⟩
  · exact absurd (by rw [hsize]; decide) h

theorem run_serializeInto_of_long {buf : MemBuffer}
    (h : ¬ notification.serializedSize ≤ cpuBufferBaseSize) (s : Sender) :
    s.run (serializeInto buf notification.serialize) =
      .done (.error writeZeroMsg) (s.writePage buf notification.serialize) := by
  have hlen : ¬ notification.serialize.length ≤ cpuBufferBaseSize := h
  simp only [serializeInto, hlen, if_false]
  rfl

end Tasks

/-- **Notifications.** For every notification, whatever the two pages held before and the calls of
the sender return: if it fits a page, one write is handed to `ibv_post_send`, and once that has
landed whole and completed `handle_notification` returns just this notification; if it does not,
serialising fails and nothing is handed over. That holds of the steps that the `Complete` arm and
`disconnect` share, and of either with what it does besides. -/
theorem roundTrips (cpuMr peerMr : IbvMr) (cpuBuffer peerBuffer : MemBuffer) :
    (∀ notification, RoundTrips
      (sendNotification ⟨peerBuffer.ptr, peerMr.rkey⟩ cpuMr cpuBuffer notification).run
      notification cpuMr peerMr peerBuffer) ∧
    (∀ (session : Session) (reqId : ReqId), RoundTrips
      (Client.completeArm { session with cpuConn := ⟨peerBuffer.ptr, peerMr.rkey⟩ } reqId)
      ⟨0, some reqId⟩ session.cpuMr peerMr peerBuffer) ∧
    RoundTrips (Client.disconnect ⟨peerBuffer.ptr, peerMr.rkey⟩ cpuMr cpuBuffer).run .complete
      cpuMr peerMr peerBuffer ∧
    ∀ notification : Notification, ¬ notification.serializedSize ≤ cpuBufferBaseSize →
      ∀ s : Sender, s.run (serializeInto cpuBuffer notification.serialize) =
        .done (.error writeZeroMsg) (s.writePage cpuBuffer notification.serialize) :=
  ⟨roundTrips_sendNotification cpuMr peerMr cpuBuffer peerBuffer,
    fun session reqId => roundTrips_completeArm session peerMr peerBuffer reqId,
    roundTrips_disconnect cpuMr peerMr cpuBuffer peerBuffer,
    fun _ h s => run_serializeInto_of_long h s⟩

end Slots

end RdmaTransport
