import RdmaTransport.Internal.Footprint

/-!
# Environments that answer anything and keep books

A choice is an answer to every operation that the environment is willing to answer, so nothing
limits what is answered but the books: `note` says what an answered operation does to them, and
whether they allow the answer at all. What is proved about a program in such an environment holds
in every environment in which the books can be kept.

## Main definitions

* `Handler.booked` — the environment

## Main results

* `Handler.always_booked_vis` — one operation
* `Handler.Always.frame` — a program that does not touch the books
-/

namespace Interaction

variable {S : Signature} {α σ : Type}

/-- The answers that the environment is willing to give. -/
abbrev Answers (S : Signature) : Type := (op : S.Op) → Option (S.Ans op)

namespace Handler

/-- An environment that gives any answer the books allow. -/
def booked (note : (op : S.Op) → S.Ans op → σ → Option σ) : Handler S σ (Answers S) :=
  fun op s choice => (choice op).bind fun r => (note op r s).map fun s' => (r, s')

variable {note : (op : S.Op) → S.Ans op → σ → Option σ} {I : S.Op → σ → Prop} {Q : α → σ → Prop}
  {op : S.Op} {k : S.Ans op → Prog S α} {s s' : σ} {r : S.Ans op}

theorem booked_eq_some {choice : Answers S} :
    booked note op s choice = some (r, s') ↔ choice op = some r ∧ note op r s = some s' := by
  rw [booked, Option.bind_eq_some_iff]
  constructor
  · rintro ⟨r', hr', h⟩
    obtain ⟨s'', hs'', heq⟩ := Option.map_eq_some_iff.mp h
    cases heq
    exact ⟨hr', hs''⟩
  · rintro ⟨hr, hs⟩
    exact ⟨r, hr, by rw [hs]; rfl⟩

/-- **One operation**: the books allow it now, and what follows is right after every answer that
the books allow. -/
theorem always_booked_vis (hI : I op s)
    (hk : ∀ r s', note op r s = some s' → (booked note).Always I Q (k r) s') :
    (booked note).Always I Q (.vis op k) s :=
  ⟨hI, fun _ r s' h => hk r s' (booked_eq_some.mp h).2⟩

/-- **A program that does not touch the books** leaves them as they are. -/
theorem Always.frame {p : Prog S α} {P : S.Op → Prop} (hp : p.Only P) (hI : ∀ op, P op → I op s)
    (hnote : ∀ op r s', P op → note op r s = some s' → s' = s) :
    (booked note).Always I (fun _ s' => s' = s) p s := by
  refine Handler.Always.of_only (J := fun s' => s' = s) hp rfl ?_ ?_
  · rintro op _ hop rfl
    exact hI op hop
  · rintro op _ choice r s' hop rfl h
    exact hnote op r s' hop (booked_eq_some.mp h).2

end Handler

end Interaction
