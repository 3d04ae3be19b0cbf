import RdmaTransport.Internal.Program

/-!
# Input that arrives during a run

A program runs against a deterministic environment, and between two of its operations something
from outside may change the state of the environment, say by appending to a queue that the program
reads from. A change that *commutes* with every operation that returns may as well have happened
before the run: `reach_of_commutes`. So a run into which input is fed step by step ends where the
run ends that has had all of its input from the start, and what is known of the latter is known of
the former.

An operation that does not return yet is not constrained. That is what makes the notion useful: a
program that waits for input is one whose next operation does not return.

## Main definitions

* `Handler.det` — a deterministic environment as a handler
* `Commutes` — a change of the state that no returning operation can tell

## Main results

* `reach_of_commutes` — the change may as well have happened before the run
* `interp_of_reach` — where a deterministic run ends does not depend on how far it has got
* `interp_rel` — what every operation keeps relates the state before a run to the one after it
-/

namespace Interaction

variable {S : Signature} {σ α : Type} {h : (op : S.Op) → σ → Option (S.Ans op × σ)}
  {G : Config S σ α → Unit → Bool} {c c' : Config S σ α}

/-- An environment that has nothing to choose. -/
def Handler.det (h : (op : S.Op) → σ → Option (S.Ans op × σ)) : Handler S σ Unit :=
  fun op s _ => h op s

/-- An operation that returns answers the same after the change, and has left of the state what it
would have left, changed. -/
def Commutes (h : (op : S.Op) → σ → Option (S.Ans op × σ)) (f : σ → σ) : Prop :=
  ∀ op s r s', h op s = some (r, s') → h op (f s) = some (r, f s')

/-- Change the state around a program. -/
def Config.change (f : σ → σ) (c : Config S σ α) : Config S σ α := ⟨f c.world, c.prog⟩

theorem Commutes.step {f : σ → σ} (hf : Commutes h f)
    (hs : Handler.step (.det h) c () = some c') :
    Handler.step (.det h) (c.change f) () = some (c'.change f) := by
  obtain ⟨op, k, r, hprog, hr, hk⟩ := Handler.step_eq_some hs
  have hf' : h op (f c.world) = some (r, f c'.world) := hf op c.world r c'.world hr
  simp [Handler.step, Handler.det, Config.change, hprog, hf', hk]

/-- **A change that commutes** may as well have happened before the run. -/
theorem reach_of_commutes {f : σ → σ} (hf : Commutes h f)
    (hr : Reach (Handler.step (.det h)) anyStep c c') :
    Reach (Handler.step (.det h)) anyStep (c.change f) (c'.change f) := by
  induction hr with
  | start => exact .start
  | next _ _ hs ih => exact ih.next rfl (hf.step hs)

/-- **Where a deterministic run ends** does not depend on how far it has got. -/
theorem interp_of_reach (hr : Reach (Handler.step (.det h)) G c c') :
    Prog.interp h c'.prog c'.world = Prog.interp h c.prog c.world := by
  induction hr with
  | start => rfl
  | next _ _ hs ih =>
    obtain ⟨op, k, r, hprog, hr, hk⟩ := Handler.step_eq_some hs
    rw [← ih, hprog, hk, Prog.interp_vis_some hr]

/-- **What every operation keeps** relates the state before a run to the one after it. -/
theorem interp_rel {R : σ → σ → Prop} (hrefl : ∀ s, R s s)
    (htrans : ∀ s₁ s₂ s₃, R s₁ s₂ → R s₂ s₃ → R s₁ s₃)
    (hstep : ∀ op s r s', h op s = some (r, s') → R s s') (p : Prog S α) (s : σ) :
    R s (Prog.interp h p s).state := by
  induction p generalizing s with
  | ret a => exact hrefl s
  | vis op k ih =>
    cases hop : h op s with
    | none =>
      rw [Prog.interp_vis_none hop]
      exact hrefl s
    | some q =>
      rw [Prog.interp_vis_some hop]
      exact htrans s q.2 _ (hstep op s q.1 q.2 hop) (ih q.1 q.2)

end Interaction
