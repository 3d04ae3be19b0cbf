import Mathlib.Data.List.OfFn

/-!
# Byte memories and copying between them

A memory is a function from addresses to bytes. `copyRange` copies a range of one memory over a
range of another and leaves every other byte alone.

## Main results

* `copyRange_apply_of_mem`, `copyRange_apply_of_not_mem` — what is where after a copy
* `readBytes_copyRange` — reading back the range, or a prefix of it
-/

namespace Interaction

variable {α : Type} {dst src : ℕ → α} {d s n m a : ℕ}

/-- Copy the `n` bytes of `src` from address `s` to address `d` of `dst`. -/
def copyRange (dst src : ℕ → α) (d s n : ℕ) : ℕ → α :=
  fun a => if d ≤ a ∧ a < d + n then src (s + (a - d)) else dst a

/-- The `n` bytes from address `a`. -/
def readBytes (mem : ℕ → α) (a n : ℕ) : List α := List.ofFn fun i : Fin n => mem (a + i)

theorem copyRange_apply_of_mem (h : d ≤ a ∧ a < d + n) :
    copyRange dst src d s n a = src (s + (a - d)) := if_pos h

theorem copyRange_apply_of_not_mem (h : ¬ (d ≤ a ∧ a < d + n)) :
    copyRange dst src d s n a = dst a := if_neg h

/-- A byte after a copy is told by that byte before it and by the range that is copied. -/
theorem copyRange_congr {dst' src' : ℕ → α} (hdst : dst a = dst' a)
    (hsrc : ∀ b, s ≤ b ∧ b < s + n → src b = src' b) :
    copyRange dst src d s n a = copyRange dst' src' d s n a := by
  by_cases h : d ≤ a ∧ a < d + n
  · rw [copyRange_apply_of_mem h, copyRange_apply_of_mem h]
    exact hsrc _ (by omega)
  · rw [copyRange_apply_of_not_mem h, copyRange_apply_of_not_mem h, hdst]

@[simp] theorem copyRange_zero : copyRange dst src d s 0 = dst :=
  funext fun _ => copyRange_apply_of_not_mem (by omega)

@[simp] theorem length_readBytes (mem : ℕ → α) (a n : ℕ) : (readBytes mem a n).length = n := by
  simp [readBytes]

/-- What has been copied is read back from where it was copied to. -/
theorem readBytes_copyRange (h : m ≤ n) :
    readBytes (copyRange dst src d s n) d m = readBytes src s m := by
  refine congrArg List.ofFn (funext fun i => ?_)
  rw [copyRange_apply_of_mem ⟨by omega, by omega⟩, Nat.add_sub_cancel_left]

/-- A memory that holds the bytes of a list gives them back. -/
theorem readBytes_getD (bs : List α) (x : α) :
    readBytes (fun i => bs.getD i x) 0 bs.length = bs := by
  refine List.ext_getElem (by simp) ?_
  intro i h₁ h₂
  simp [readBytes]

end Interaction
