import Mathlib.Order.RelClasses
import RdmaTransport.Internal.Program

/-!
# Runs that come to an end

A system leads to a set of states if every run of it is finite and ends there: it can neither go on
for ever nor come to a halt anywhere else. Nothing is assumed about who moves when.

The rule takes an invariant and a variant. Programs make good variants: a program is a well-founded
tree, and each of its operations goes down one edge of it, whatever is answered.

## Main definitions

* `Leads` — every run ends, and where it does a property holds
* `Prog.Continues` — what is left of a program after its next operation

## Main results

* `Leads.of_wellFounded` — the rule
* `Prog.wellFounded_continues` — programs are a variant
-/

namespace Interaction

section Leads

variable {σ ℓ : Type} {step : σ → ℓ → Option σ} {G : σ → ℓ → Bool} {P I : σ → Prop}
  {r : σ → σ → Prop} {s : σ}

/-- No step that meets the guard is left. -/
def Final (step : σ → ℓ → Option σ) (G : σ → ℓ → Bool) (s : σ) : Prop :=
  ∀ l, G s l = true → step s l = none

/-- Every run from `s` of steps that meet the guard is finite, and where it cannot go on, `P`
holds. -/
inductive Leads (step : σ → ℓ → Option σ) (G : σ → ℓ → Bool) (P : σ → Prop) : σ → Prop
  /-- Every step leads there, and if there is none it has been reached. -/
  | intro {s : σ} (next : ∀ l s', G s l = true → step s l = some s' → Leads step G P s')
      (final : Final step G s → P s) : Leads step G P s

theorem Leads.mono {Q : σ → Prop} (h : Leads step G P s) (hP : ∀ s, P s → Q s) :
    Leads step G Q s := by
  induction h with
  | intro _ final ih => exact .intro ih fun hf => hP _ (final hf)

/-- Where a run ends has been reached. -/
theorem Leads.reached {s₀ : σ} (h : Leads step G P s) (hs : Reach step G s₀ s) :
    Leads step G (fun s => P s ∧ Reach step G s₀ s) s := by
  induction h with
  | intro _ final ih =>
    exact .intro (fun l s' hG hl => ih l s' hG hl (hs.next hG hl)) fun hf => ⟨final hf, hs⟩

/-- **Invariant and variant.** What every step keeps, and what every step makes smaller. -/
theorem Leads.of_wellFounded (hwf : WellFounded r)
    (hstep : ∀ s l s', I s → G s l = true → step s l = some s' → I s' ∧ r s' s)
    (hfinal : ∀ s, I s → Final step G s → P s) (hs : I s) : Leads step G P s := by
  induction s using hwf.induction with
  | _ s ih =>
    refine .intro ?_ (hfinal s hs)
    intro l s' hG hl
    obtain ⟨hs', hr⟩ := hstep s l s' hs hG hl
    exact ih s' hr hs'

end Leads

section Programs

variable {S : Signature} {α σ C : Type}

/-- `p'` is what is left of `p` when its next operation has been answered. -/
def Prog.Continues (p' p : Prog S α) : Prop := ∃ op k r, p = .vis op k ∧ p' = k r

theorem Prog.wellFounded_continues : WellFounded (Prog.Continues (S := S) (α := α)) := by
  constructor
  intro p
  induction p with
  | ret a =>
    constructor
    rintro p' ⟨op, k, r, hp, -⟩
    cases hp
  | vis op k ih =>
    constructor
    rintro p' ⟨op', k', r, hp, rfl⟩
    cases hp
    exact ih r

end Programs

end Interaction
