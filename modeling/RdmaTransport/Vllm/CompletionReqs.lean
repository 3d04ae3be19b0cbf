import Mathlib.Data.Finset.Insert
import Mathlib.Data.Finset.Erase
import RdmaTransport.Internal.Window

/-!
# The completion table

`CompletionReqs` remembers which requests are complete: a `VecDeque` in the order of recording and
a `HashSet` for the lookups. Client and server record by the same discipline, `record` below:
`add_req`, then `remove_first` if `is_full`. Both allocate room for 1024 requests, so a table holds
the last 1023 records.

The queue keeps one entry for each record and the set one for each distinct id. Evicting an old
record of an id therefore erases the id from the set although a newer record of it may still be
queued: `isReqComplete_recordAll` says exactly which ids the set holds, and it is `Survives` and
not membership in the queue.

## Main results

* `fifoReqs_recordAll` — the queue is the last `C - 1` records and never reallocates
* `isReqComplete_recordAll` — the set, in terms of the recorded sequence
* `recorded_complete_iff` — when no queued request is reported as unfinished
-/

namespace RdmaTransport

open Interaction

/-- A request id. -/
abbrev ReqId := List UInt8

/-- `std::collections::VecDeque`: the elements in order and the allocated capacity. -/
structure VecDeque (α : Type) where
  /-- The elements, front first. -/
  items : List α
  /-- How many elements fit without a reallocation. -/
  capacity : ℕ
  deriving DecidableEq, Repr

namespace VecDeque

variable {α : Type}

/-- `VecDeque::with_capacity`. -/
def withCapacity (size : ℕ) : VecDeque α := ⟨[], size⟩

/-- `VecDeque::push_back`. A full deque doubles its capacity first, to four elements at least. -/
def pushBack (q : VecDeque α) (a : α) : VecDeque α :=
  ⟨q.items ++ [a], if q.items.length = q.capacity then max 4 (max (2 * q.capacity) (q.capacity + 1))
    else q.capacity⟩

/-- `VecDeque::pop_front`. -/
def popFront (q : VecDeque α) : Option α × VecDeque α :=
  (q.items.head?, { q with items := q.items.tail })

theorem pushBack_of_lt {q : VecDeque α} (h : q.items.length < q.capacity) (a : α) :
    q.pushBack a = ⟨q.items ++ [a], q.capacity⟩ := by
  rw [pushBack, if_neg (Nat.ne_of_lt h)]

end VecDeque

/-- The requests known to be complete. -/
structure CompletionReqs where
  /-- In the order of recording. -/
  fifoReqs : VecDeque ReqId
  /-- For the lookups. -/
  reqsSet : Finset ReqId
  deriving DecidableEq

namespace CompletionReqs

/-- `CompletionReqs::new`. -/
def new (size : ℕ) : CompletionReqs := ⟨.withCapacity size, ∅⟩

/-- `CompletionReqs::add_req`. -/
def addReq (t : CompletionReqs) (req : ReqId) : CompletionReqs :=
  ⟨t.fifoReqs.pushBack req, insert req t.reqsSet⟩

/-- `CompletionReqs::remove_first`. -/
def removeFirst (t : CompletionReqs) : CompletionReqs :=
  match t.fifoReqs.popFront with
  | (some req, q) => ⟨q, t.reqsSet.erase req⟩
  | (none, q) => { t with fifoReqs := q }

/-- `CompletionReqs::is_req_complete`. -/
def isReqComplete (t : CompletionReqs) (req : ReqId) : Bool := decide (req ∈ t.reqsSet)

/-- `CompletionReqs::is_full`. -/
def isFull (t : CompletionReqs) : Bool := t.fifoReqs.items.length == t.fifoReqs.capacity

/-- The discipline of client and server: `add_req`, then `remove_first` if `is_full`. -/
def record (t : CompletionReqs) (req : ReqId) : CompletionReqs :=
  if (t.addReq req).isFull then (t.addReq req).removeFirst else t.addReq req

/-- Record a whole sequence. -/
def recordAll (t : CompletionReqs) (reqs : List ReqId) : CompletionReqs := reqs.foldl record t

@[simp] theorem recordAll_nil (t : CompletionReqs) : t.recordAll [] = t := rfl

@[simp] theorem recordAll_concat (t : CompletionReqs) (reqs : List ReqId) (req : ReqId) :
    t.recordAll (reqs ++ [req]) = (t.recordAll reqs).record req := by
  simp [recordAll]

theorem isReqComplete_eq_true {t : CompletionReqs} {req : ReqId} :
    t.isReqComplete req = true ↔ req ∈ t.reqsSet := decide_eq_true_iff

/-! ### One record -/

variable {t : CompletionReqs} {req r : ReqId} {C : ℕ} {reqs : List ReqId}

/-- With room for more than one record left, a record only adds. -/
theorem record_of_lt (h : t.fifoReqs.items.length + 1 < t.fifoReqs.capacity) :
    t.record req =
      ⟨⟨t.fifoReqs.items ++ [req], t.fifoReqs.capacity⟩, insert req t.reqsSet⟩ := by
  have hadd : t.addReq req =
      ⟨⟨t.fifoReqs.items ++ [req], t.fifoReqs.capacity⟩, insert req t.reqsSet⟩ := by
    rw [addReq, VecDeque.pushBack_of_lt (by omega)]
  have hfull : (t.addReq req).isFull = false := by
    simp only [hadd, isFull, List.length_append, List.length_singleton, beq_eq_false_iff_ne]
    omega
  rw [record, hfull, hadd]
  rfl

/-- With room for one record left, the oldest record goes and takes its id out of the set. -/
theorem record_of_full (old : ReqId) (h : t.fifoReqs.items.length + 1 = t.fifoReqs.capacity)
    (hold : (t.fifoReqs.items ++ [req]).head? = some old) :
    t.record req = ⟨⟨(t.fifoReqs.items ++ [req]).tail, t.fifoReqs.capacity⟩,
      (insert req t.reqsSet).erase old⟩ := by
  have hadd : t.addReq req =
      ⟨⟨t.fifoReqs.items ++ [req], t.fifoReqs.capacity⟩, insert req t.reqsSet⟩ := by
    rw [addReq, VecDeque.pushBack_of_lt (by omega)]
  have hfull : (t.addReq req).isFull = true := by
    simp only [hadd, isFull, List.length_append, List.length_singleton, beq_iff_eq]
    omega
  rw [record, hfull, if_pos rfl, removeFirst, hadd, VecDeque.popFront, hold]

/-- A record adds its own id at most. -/
theorem isReqComplete_of_record (h : (t.record req).isReqComplete r = true) :
    r = req ∨ t.isReqComplete r = true := by
  rw [isReqComplete_eq_true] at h ⊢
  have hadd : r ∈ (t.addReq req).reqsSet → r = req ∨ r ∈ t.reqsSet := Finset.mem_insert.mp
  rw [record] at h
  split at h
  · rw [removeFirst] at h
    split at h
    · exact hadd (Finset.mem_of_mem_erase h)
    · exact hadd h
  · exact hadd h

/-! ### A whole sequence -/

/-- **The queue** is the last `C - 1` records, and the deque has never reallocated. -/
theorem fifoReqs_recordAll (hC : 2 ≤ C) (reqs : List ReqId) :
    ((new C).recordAll reqs).fifoReqs = ⟨reqs.rtake (C - 1), C⟩ := by
  induction reqs using List.reverseRecOn with
  | nil => simp [new, VecDeque.withCapacity]
  | append_singleton reqs req ih =>
    rw [recordAll_concat]
    rcases Nat.lt_or_ge reqs.length (C - 1) with hlt | hge
    · have hlen : (reqs.rtake (C - 1)).length = reqs.length := by
        rw [List.rtake, List.length_drop]
        omega
      rw [record_of_lt (by rw [ih]; simp only [hlen]; omega), ih]
      simp only [rtake_concat_of_lt hlt]
    · have hlen := length_rtake_of_le hge
      obtain ⟨old, hold⟩ : ∃ old, (reqs.rtake (C - 1) ++ [req]).head? = some old := by
        cases h : reqs.rtake (C - 1) <;> simp
      rw [record_of_full old (by rw [ih]; simp only [hlen]; omega) (by rw [ih]; exact hold),
        ih]
      simp only [rtake_concat_of_full hge]

/-- **The set** holds the ids that were recorded again after their last eviction. -/
theorem isReqComplete_recordAll (hC : 2 ≤ C) (reqs : List ReqId) (r : ReqId) :
    ((new C).recordAll reqs).isReqComplete r = true ↔ Survives (C - 1) reqs r := by
  rw [isReqComplete_eq_true]
  induction reqs using List.reverseRecOn generalizing r with
  | nil => simpa [new] using not_survives_nil
  | append_singleton reqs req ih =>
    have hq := fifoReqs_recordAll hC reqs
    rw [recordAll_concat, survives_concat_iff (by omega)]
    rcases Nat.lt_or_ge reqs.length (C - 1) with hlt | hge
    · have hlen : (reqs.rtake (C - 1)).length = reqs.length := by
        rw [List.rtake, List.length_drop]
        omega
      rw [record_of_lt (by rw [hq]; simp only [hlen]; omega)]
      simp only [Finset.mem_insert, ih]
      exact (and_iff_left (by omega)).symm
    · have hlen := length_rtake_of_le hge
      have hhead := head?_rtake_concat (x := req) hge
      obtain ⟨old, hold⟩ : ∃ old, (reqs.rtake (C - 1) ++ [req]).head? = some old := by
        cases h : reqs.rtake (C - 1) <;> simp
      rw [record_of_full old (by rw [hq]; simp only [hlen]; omega) (by rw [hq]; exact hold)]
      rw [hold] at hhead
      simp only [Finset.mem_erase, Finset.mem_insert, ih, ← hhead, Option.some_inj, hge, true_and]
      exact ⟨fun h => ⟨h.2, fun he => h.1 he.symm⟩, fun h => ⟨fun he => h.2 he.symm, h.1⟩⟩

/-- No id whose last record is among the last `C - 1` has an older record that has been evicted
and lies at most `C - 1` positions before that last record. -/
def NoLateEviction (C : ℕ) (reqs : List ReqId) : Prop :=
  ∀ i j r, reqs[i]? = some r → reqs.length ≤ i + (C - 1) → (∀ l, i < l → reqs[l]? ≠ some r) →
    reqs[j]? = some r → j + (C - 1) < reqs.length → j + (C - 1) < i

/-- **When nothing recorded is lost early.** After any sequence of records, every id among the
last `C - 1` is reported complete if and only if no id was evicted after its last record. -/
theorem recorded_complete_iff (hC : 2 ≤ C) (reqs : List ReqId) :
    (∀ r ∈ reqs.rtake (C - 1), ((new C).recordAll reqs).isReqComplete r = true) ↔
      NoLateEviction C reqs := by
  simp only [isReqComplete_recordAll hC]
  exact forall_survives_iff

theorem recorded_complete_iff_three :
    (∀ r ∈ List.rtake [[1], [1], [2]] (3 - 1),
      ((new 3).recordAll [[1], [1], [2]]).isReqComplete r = true) ↔
        NoLateEviction 3 [[1], [1], [2]] :=
  recorded_complete_iff (by decide) [[1], [1], [2]]

/-- Recording one id 1024 times fills the table of 1024, and the eviction of the first record
takes the id out of the set although 1023 newer records of it are queued. -/
theorem repeated_req_lost :
    ∃ r ∈ (List.replicate 1024 [7]).rtake (1024 - 1),
      ((new 1024).recordAll (List.replicate 1024 [7])).isReqComplete r = false := by
  have hlost : ¬ Survives (1024 - 1) (List.replicate 1024 [(7 : UInt8)]) [7] := by
    rintro ⟨i, hi, hev⟩
    have hlt := (List.getElem?_eq_some_iff.mp hi).1
    rw [List.length_replicate] at hlt
    have := hev 0 (by rw [List.getElem?_replicate, if_pos (by decide)])
      (by rw [List.length_replicate]; decide)
    omega
  refine ⟨[7], ?_, Bool.eq_false_iff.mpr ?_⟩
  · rw [List.rtake, List.drop_replicate, List.length_replicate]
    exact List.mem_replicate.mpr ⟨by decide, rfl⟩
  · rwa [Ne, isReqComplete_recordAll (by decide)]

end CompletionReqs

end RdmaTransport
