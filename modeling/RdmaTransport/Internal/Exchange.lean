import RdmaTransport.Internal.Program

/-!
# Programs that stop at the first failure

An exchange is a list of operations with the answers they got, and what a program is after it. No
environment is involved: any answers at all make an exchange. Some answers are failures. A program
fails fast if it performs nothing after a failure and returns a value that says which it was, so the
failure an exchange contains is its last answer.

## Main definitions

* `Exchange` — a program, answers, and what is left of the program
* `Prog.FailsFast` — a failure ends the program

## Main results

* `Prog.FailsFast.bind` — the rule for sequencing
* `Prog.FailsFast.last` — a failure is the last answer, and is what the program reports
-/

namespace Interaction

variable {S : Signature} {α β : Type}

/-- The program `p` becomes `q` when its operations get these answers. -/
inductive Exchange : Prog S α → List (Σ op, S.Ans op) → Prog S α → Prop
  /-- Before the first operation. -/
  | start (p : Prog S α) : Exchange p [] p
  /-- An operation and its answer come first. -/
  | next {op : S.Op} {k : S.Ans op → Prog S α} {r : S.Ans op} {answers : List (Σ op, S.Ans op)}
      {q : Prog S α} : Exchange (k r) answers q → Exchange (.vis op k) (⟨op, r⟩ :: answers) q

namespace Prog

variable {Failed : (op : S.Op) → S.Ans op → Prop} {Reports : (op : S.Op) → S.Ans op → α → Prop}
  {Reports' : (op : S.Op) → S.Ans op → β → Prop}

/-- Whatever is answered, a failure ends the program, and what it returns reports the failure. -/
def FailsFast (Failed : (op : S.Op) → S.Ans op → Prop)
    (Reports : (op : S.Op) → S.Ans op → α → Prop) : Prog S α → Prop
  | .ret _ => True
  | .vis op k => ∀ r, (k r).FailsFast Failed Reports ∧
      (Failed op r → ∃ a, k r = .ret a ∧ Reports op r a)

/-- **Sequencing.** What goes on after a value must not go on after a report. -/
theorem FailsFast.bind {p : Prog S α} {f : α → Prog S β} (hp : p.FailsFast Failed Reports)
    (hf : ∀ a, (f a).FailsFast Failed Reports')
    (hreports : ∀ op r a, Reports op r a → ∃ b, f a = .ret b ∧ Reports' op r b) :
    (p.bind f).FailsFast Failed Reports' := by
  induction p with
  | ret a => exact hf a
  | vis op k ih =>
    intro r
    obtain ⟨hrest, hfailed⟩ := hp r
    refine ⟨ih r hrest, ?_⟩
    intro hr
    obtain ⟨a, ha, hreport⟩ := hfailed hr
    obtain ⟨b, hb, hreport'⟩ := hreports op r a hreport
    refine ⟨b, ?_, hreport'⟩
    show (k r).bind f = .ret b
    rw [ha, ret_bind, hb]

/-- **The first failure is the last answer**, and the program has returned its report. -/
theorem FailsFast.last {p q : Prog S α} {answers : List (Σ op, S.Ans op)} {i : ℕ} {op : S.Op}
    {r : S.Ans op} (hp : p.FailsFast Failed Reports) (hx : Exchange p answers q)
    (hi : answers[i]? = some ⟨op, r⟩) (hr : Failed op r) :
    i + 1 = answers.length ∧ ∃ a, q = .ret a ∧ Reports op r a := by
  induction hx generalizing i with
  | start p => cases hi
  | @next op' k r' answers q hx ih =>
    obtain ⟨hrest, hfailed⟩ := hp r'
    cases i with
    | succ i =>
      obtain ⟨hlast, hreport⟩ := ih hrest hi
      exact ⟨by rw [List.length_cons, hlast], hreport⟩
    | zero =>
      cases hi
      obtain ⟨a, ha, hreport⟩ := hfailed hr
      rw [ha] at hx
      cases hx
      exact ⟨rfl, a, rfl, hreport⟩

end Prog

end Interaction
