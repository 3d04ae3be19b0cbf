import RdmaTransport.Internal.Program

/-!
# The operations a program can perform

`p.Only P` says that every operation `p` can perform satisfies `P`, whatever its operations are
answered. No environment is involved, so the facts are cheap: a long program that touches some part
of the interface only in a few places is `Only` the rest everywhere else, and an invariant that
such operations keep need not be followed through it. Where a program must be known to perform an
operation, `p.MayPerform op` says that some answers bring it there.

## Main results

* `Prog.Only.bind`, `Prog.Only.loop` — the rules for sequencing and for loops
* `Handler.Always.of_only` — an invariant that the operations of a program keep
-/

namespace Interaction

variable {S : Signature} {α β σ C : Type}

namespace Prog

variable {P P' : S.Op → Prop}

/-- Every operation the program can perform satisfies `P`. -/
def Only (P : S.Op → Prop) : Prog S α → Prop
  | .ret _ => True
  | .vis op k => P op ∧ ∀ r, (k r).Only P

theorem Only.mono {p : Prog S α} (hp : p.Only P) (h : ∀ op, P op → P' op) : p.Only P' := by
  induction p with
  | ret a => trivial
  | vis op k ih => exact ⟨h op hp.1, fun r => ih r (hp.2 r)⟩

/-- **Sequencing.** Of the values `f` gets, only those that the first part can return matter. -/
theorem Only.bind {p : Prog S α} {f : α → Prog S β} (hp : p.Only P)
    (hf : ∀ a, p.Returns a → (f a).Only P) : (p.bind f).Only P := by
  induction p with
  | ret a => exact hf a rfl
  | vis op k ih =>
    refine ⟨hp.1, ?_⟩
    intro r
    exact ih r (hp.2 r) fun a ha => hf a ⟨r, ha⟩

/-- **Loops.** -/
theorem Only.loop {body : Prog S (Option β)} (hbody : body.Only P) (n : ℕ) :
    (Prog.loop body n).Only P := by
  induction n with
  | zero => trivial
  | succ n ih =>
    refine hbody.bind ?_
    intro o _
    cases o with
    | none => exact ih
    | some b => trivial

/-- Some environment makes the program perform `op`. -/
def MayPerform (op : S.Op) : Prog S α → Prop
  | .ret _ => False
  | .vis op' k => op = op' ∨ ∃ r, (k r).MayPerform op

theorem Only.of_mayPerform {p : Prog S α} {op : S.Op} (hp : p.Only P) (h : p.MayPerform op) :
    P op := by
  induction p with
  | ret a => exact h.elim
  | vis op' k ih =>
    rcases h with rfl | ⟨r, hr⟩
    · exact hp.1
    · exact ih r (hp.2 r) hr

theorem MayPerform.bind {p : Prog S α} {f : α → Prog S β} {op : S.Op} (h : p.MayPerform op) :
    (p.bind f).MayPerform op := by
  induction p with
  | ret a => exact h.elim
  | vis op' k ih => exact h.imp_right fun ⟨r, hr⟩ => ⟨r, ih r hr⟩

theorem mayPerform_bind_of_returns {p : Prog S α} {f : α → Prog S β} {a : α} {op : S.Op}
    (hp : p.Returns a) (h : (f a).MayPerform op) : (p.bind f).MayPerform op := by
  induction p with
  | ret b =>
    obtain rfl : b = a := hp
    exact h
  | vis op' k ih =>
    obtain ⟨r, hr⟩ := hp
    exact .inr ⟨r, ih r hr⟩

end Prog

namespace Handler.Always

variable {h : Handler S σ C} {I : S.Op → σ → Prop} {P : S.Op → Prop} {J : σ → Prop} {s : σ}

/-- **An invariant that the operations of a program keep** holds throughout, and when it returns. -/
theorem of_only {p : Prog S α} (hp : p.Only P) (hs : J s) (hI : ∀ op s, P op → J s → I op s)
    (hJ : ∀ op s choice r s', P op → J s → h op s choice = some (r, s') → J s') :
    Handler.Always h I (fun _ => J) p s := by
  induction p generalizing s with
  | ret a => exact hs
  | vis op k ih =>
    refine ⟨hI op s hp.1 hs, ?_⟩
    intro choice r s' hr
    exact ih r (hp.2 r) (hJ op s choice r s' hp.1 hs hr)

end Handler.Always

end Interaction
