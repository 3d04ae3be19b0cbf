import Mathlib.Data.List.DropRight
import Mathlib.Data.Nat.Find

/-!
# Sliding windows with forgetful eviction

A queue that keeps the last `W` entries of a sequence, next to a set from which an entry's value
is erased when it leaves the queue. The queue is `List.rtake`. The set is more delicate: when a
value is recorded twice, the eviction of its older record erases the value although the newer
record is still queued. `Survives` says, in terms of the sequence alone, which values the set
still holds: those recorded again after their last eviction.

Position `j` is evicted by the record at position `j + W`, once that record has been made.

## Main results

* `rtake_concat_of_full`, `rtake_concat_of_lt` — how the queue moves
* `survives_concat_iff` — how the set moves
* `forall_survives_iff` — when nothing in the window has been forgotten
-/

namespace Interaction

variable {α : Type} {W : ℕ} {as : List α} {a x : α}

theorem length_rtake_of_le (h : W ≤ as.length) : (as.rtake W).length = W := by
  rw [List.rtake, List.length_drop]
  omega

theorem rtake_concat_of_full (h : W ≤ as.length) :
    (as.rtake W ++ [x]).tail = (as ++ [x]).rtake W := by
  rw [List.rtake, List.rtake, ← List.drop_append_of_le_length (by omega), ← List.drop_one,
    List.drop_drop, List.length_append, List.length_singleton]
  exact congrArg (fun n => (as ++ [x]).drop n) (by omega)

theorem rtake_concat_of_lt (h : as.length < W) : as.rtake W ++ [x] = (as ++ [x]).rtake W := by
  rw [List.rtake, List.rtake, ← List.drop_append_of_le_length (by omega), List.length_append,
    List.length_singleton]
  exact congrArg (fun n => (as ++ [x]).drop n) (by omega)

/-- The oldest entry of a full queue, after one more record, is the one at `as.length - W`. -/
theorem head?_rtake_concat (h : W ≤ as.length) :
    (as.rtake W ++ [x]).head? = (as ++ [x])[as.length - W]? := by
  rw [List.rtake, ← List.drop_append_of_le_length (by omega), List.head?_drop]

/-- Some record of `a` was made after every eviction of `a`. -/
def Survives (W : ℕ) (as : List α) (a : α) : Prop :=
  ∃ i, as[i]? = some a ∧ ∀ j, as[j]? = some a → j + W < as.length → j + W < i

theorem not_survives_nil : ¬ Survives W ([] : List α) a := by
  rintro ⟨i, hi, -⟩
  simp at hi

theorem getElem?_concat_of_lt {i : ℕ} (h : i < as.length) : (as ++ [x])[i]? = as[i]? :=
  List.getElem?_append_left h

/-- **One record.** `x` enters, and the value that leaves the window, if one does, is forgotten
even when it is still queued or is `x` itself. -/
theorem survives_concat_iff (hW : 0 < W) :
    Survives W (as ++ [x]) a ↔
      (a = x ∨ Survives W as a) ∧
        ¬ (W ≤ as.length ∧ (as ++ [x])[as.length - W]? = some a) := by
  have hlen : (as ++ [x]).length = as.length + 1 := by simp
  constructor
  · rintro ⟨i, hi, hev⟩
    have hile : i ≤ as.length := by
      have := (List.getElem?_eq_some_iff.mp hi).1
      omega
    constructor
    · rcases Nat.lt_or_ge i as.length with hlt | hge
      · refine Or.inr ⟨i, by rwa [getElem?_concat_of_lt hlt] at hi, fun j hj hjW => ?_⟩
        exact hev j (by rwa [getElem?_concat_of_lt (by omega)]) (by omega)
      · obtain rfl : i = as.length := by omega
        rw [List.getElem?_concat_length] at hi
        exact Or.inl (Option.some_inj.mp hi).symm
    · rintro ⟨hfull, hold⟩
      -- the eviction of this record is the last step, and no record comes after it
      have := hev _ hold (by omega)
      omega
  · rintro ⟨hor, hnot⟩
    have hstill : ∀ j, (as ++ [x])[j]? = some a → j + W < as.length + 1 → j + W < as.length := by
      intro j hj hjW
      by_contra hge
      obtain rfl : j = as.length - W := by omega
      exact hnot ⟨by omega, hj⟩
    rcases hor with rfl | ⟨i, hi, hev⟩
    · refine ⟨as.length, List.getElem?_concat_length .., fun j hj hjW => ?_⟩
      exact hstill j hj (by omega)
    · have hilt : i < as.length := (List.getElem?_eq_some_iff.mp hi).1
      refine ⟨i, by rwa [getElem?_concat_of_lt hilt], fun j hj hjW => ?_⟩
      have hjlt := hstill j hj (by omega)
      exact hev j (by rwa [getElem?_concat_of_lt (by omega)] at hj) hjlt

/-- A value in the window is one recorded at one of the last `W` positions. -/
theorem mem_rtake_iff :
    a ∈ as.rtake W ↔ ∃ i, as[i]? = some a ∧ as.length ≤ i + W := by
  rw [List.rtake, List.mem_iff_getElem?]
  constructor
  · rintro ⟨i, hi⟩
    rw [List.getElem?_drop] at hi
    exact ⟨_, hi, by omega⟩
  · rintro ⟨i, hi, hiW⟩
    refine ⟨i - (as.length - W), ?_⟩
    rw [List.getElem?_drop]
    rwa [show as.length - W + (i - (as.length - W)) = i by omega]

/-- What the set holds is in the window. -/
theorem Survives.mem_rtake (h : Survives W as a) : a ∈ as.rtake W := by
  obtain ⟨i, hi, hev⟩ := h
  refine mem_rtake_iff.mpr ⟨i, hi, ?_⟩
  by_contra hlt
  exact absurd (hev i hi (by omega)) (by omega)

theorem rtake_min (as : List α) (n : ℕ) : as.rtake (min as.length n) = as.rtake n := by
  rw [List.rtake, List.rtake]
  congr 1
  omega

/-- The last record of a value that has one. -/
theorem exists_last_record {i : ℕ} (hi : as[i]? = some a) :
    ∃ k, i ≤ k ∧ as[k]? = some a ∧ ∀ l, k < l → as[l]? ≠ some a := by
  classical
  obtain ⟨hlt, -⟩ := List.getElem?_eq_some_iff.mp hi
  let P : ℕ → Prop := fun k => i ≤ k ∧ as[k]? = some a
  have hP : P (Nat.findGreatest P as.length) :=
    Nat.findGreatest_spec (P := P) (le_of_lt hlt) ⟨le_refl i, hi⟩
  refine ⟨_, hP.1, hP.2, ?_⟩
  intro l hl hla
  have hll : l ≤ as.length := le_of_lt (List.getElem?_eq_some_iff.mp hla).1
  exact absurd (Nat.le_findGreatest (P := P) hll ⟨by omega, hla⟩) (by omega)

/-- Every value in the window is still in the set exactly when no value whose last record is in
the window has an older record that has left it and lies at most `W` positions before that last
record. -/
theorem forall_survives_iff :
    (∀ a ∈ as.rtake W, Survives W as a) ↔
      ∀ i j a, as[i]? = some a → as.length ≤ i + W → (∀ l, i < l → as[l]? ≠ some a) →
        as[j]? = some a → j + W < as.length → j + W < i := by
  constructor
  · intro h i j a hi hiW hlast hj hjW
    obtain ⟨k, hk, hev⟩ := h a (mem_rtake_iff.mpr ⟨i, hi, hiW⟩)
    have hki : k ≤ i := Nat.not_lt.mp fun hlt => hlast k hlt hk
    exact lt_of_lt_of_le (hev j hj hjW) hki
  · intro h a ha
    obtain ⟨i, hi, hiW⟩ := mem_rtake_iff.mp ha
    obtain ⟨k, hik, hk, hlast⟩ := exists_last_record hi
    exact ⟨k, hk, fun j hj hjW => h k j a hk (by omega) hlast hj hjW⟩

end Interaction
