import Mathlib.Data.Nat.Notation

/-!
# Runs of a labelled step function

A system is a function `step : σ → ℓ → Option σ`: the label says who moves and how the
environment resolves its freedom, and `none` says that the label is not enabled. A *guard* is a
condition on a state and the label taken in it, and `Reach step G s₀` is what can be reached from
`s₀` by steps that all meet the guard. A statement about every run whose steps all meet a
condition is a statement about `Reach`.

Guards are functions to `Bool`, so that a concrete run can be evaluated: `execWithin` runs a list
of labels and stops at the first step that is not enabled or does not meet the guard, and
`Reach.of_execWithin` turns its success into reachability.

## Main results

* `Reach.invariant` — what holds initially and is kept by every guarded step holds throughout
* `Reach.of_execWithin` — reachability by evaluation
-/

namespace Interaction

variable {σ ℓ : Type} {step : σ → ℓ → Option σ} {G : σ → ℓ → Bool} {s₀ s : σ}

/-- The states reached from `s₀` by steps that all meet the guard `G`. -/
inductive Reach (step : σ → ℓ → Option σ) (G : σ → ℓ → Bool) (s₀ : σ) : σ → Prop
  /-- The initial state. -/
  | start : Reach step G s₀ s₀
  /-- One more step. -/
  | next {s s' : σ} {l : ℓ} : Reach step G s₀ s → G s l = true → step s l = some s' →
      Reach step G s₀ s'

/-- No condition on the steps at all. -/
def anyStep : σ → ℓ → Bool := fun _ _ => true

/-- **The invariant rule.** -/
theorem Reach.invariant {P : σ → Prop} (h : Reach step G s₀ s) (hinit : P s₀)
    (hstep : ∀ s l s', P s → G s l = true → step s l = some s' → P s') : P s := by
  induction h with
  | start => exact hinit
  | next _ hG hs ih => exact hstep _ _ _ ih hG hs

theorem Reach.mono {G' : σ → ℓ → Bool} (h : Reach step G s₀ s)
    (hG : ∀ s l, G s l = true → G' s l = true) : Reach step G' s₀ s := by
  induction h with
  | start => exact .start
  | next _ hl hs ih => exact ih.next (hG _ _ hl) hs

/-- Run a list of labels, as long as every step is enabled and meets the guard. -/
def execWithin (step : σ → ℓ → Option σ) (G : σ → ℓ → Bool) : σ → List ℓ → Option σ
  | s, [] => some s
  | s, l :: ls => if G s l then (step s l).bind fun s' => execWithin step G s' ls else none

theorem Reach.of_execWithin {ls : List ℓ} {s' : σ} (h : Reach step G s₀ s)
    (he : execWithin step G s ls = some s') : Reach step G s₀ s' := by
  induction ls generalizing s with
  | nil => cases he; exact h
  | cons l ls ih =>
    rw [execWithin] at he
    split at he
    · next hG =>
      obtain ⟨s₁, h₁, h₂⟩ := Option.bind_eq_some_iff.mp he
      exact ih (h.next hG h₁) h₂
    · cases he

/-- What a concrete run of labels shows of the state it ends in holds of some reachable state. -/
theorem exists_reach_of_execWithin {P : σ → Prop} (ls : List ℓ)
    (he : ∃ s, execWithin step G s₀ ls = some s ∧ P s) : ∃ s, Reach step G s₀ s ∧ P s := by
  obtain ⟨s, hs, hP⟩ := he
  exact ⟨s, Reach.start.of_execWithin hs, hP⟩

end Interaction
