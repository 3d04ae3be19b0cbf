import RdmaTransport.Interface
import RdmaTransport.Internal.Footprint

/-!
# Rules for tasks that may fail

The `?` operator goes on with a value and returns an error at once. So what is asked of a sequence
is asked of its parts, and of the values that the first part can return.

A `Fallible` that returns an error is over, and what is said about its value is said about the
success case only. `Ensures` is that reading of `Handler.Always`, and `?` composes under it. Where
the error case matters, `always_andThen` is the rule. `Completes` says that there is no error.

## Main definitions

* `Fallible.Ensures` — what holds of the value a fallible task returns
* `Fallible.Completes` — a fallible task that returns a value

## Main results

* `Fallible.Ensures.andThen`, `Fallible.always_andThen`, `Fallible.only_andThen` — the `?` rules
-/

namespace RdmaTransport

open Interaction

variable {σ C α β : Type} {h : Handler iface σ C} {I : Op → σ → Prop} {A : Op → Prop}

namespace Fallible

/-! ### What is ensured -/

variable {P Q : α → σ → Prop} {R : β → σ → Prop} {s : σ}

/-- Every operation finds a state that allows it, and a value `a` is returned with `P a`. -/
def Ensures (h : Handler iface σ C) (I : Op → σ → Prop) (P : α → σ → Prop) (p : Fallible α)
    (s : σ) : Prop :=
  h.Always I (fun r s => ∀ a, r = .ok a → P a s) p.run s

theorem Ensures.mono {p : Fallible α} (hp : Ensures h I P p s) (hQ : ∀ a s, P a s → Q a s) :
    Ensures h I Q p s :=
  Handler.Always.mono hp fun _ s hr a ha => hQ a s (hr a ha)

/-- What a task ensures of a value may speak about what it can return at all. -/
theorem Ensures.returns {p : Fallible α} (hp : Ensures h I P p s) :
    Ensures h I (fun a s => P a s ∧ p.run.Returns (.ok a)) p s :=
  (Handler.Always.and_returns hp).mono fun _ _ hr a ha => ⟨hr.1 a ha, ha ▸ hr.2⟩

/-- **The `?` operator.** What `p` ensures is what `f` starts from. -/
theorem Ensures.andThen {p : Fallible α} {f : α → Fallible β} (hp : Ensures h I P p s)
    (hf : ∀ a s, P a s → Ensures h I R (f a) s) : Ensures h I R (p.andThen f) s := by
  rw [Ensures, run_andThen]
  refine Handler.Always.bind hp ?_
  intro r s hr
  cases r with
  | ok a => exact hf a s (hr a rfl)
  | error e => exact nofun

theorem ensures_pure {a : α} (ha : P a s) : Ensures h I P (pure a) s := by
  rintro _ ⟨⟩
  exact ha

theorem ensures_fail {e : TransportErrors} : Ensures h I P (fail e) s := nofun

theorem ensures_ofExcept {r : Except TransportErrors α} (hr : ∀ a, r = .ok a → P a s) :
    Ensures h I P (ofExcept r) s := hr

/-- What every part keeps, whatever it returns, and what the values it goes on with establish. -/
theorem always_andThen {J : σ → Prop} {E : Except TransportErrors β → σ → Prop} {p : Fallible α}
    {f : α → Fallible β} (hp : h.Always I (fun _ => J) p.run s)
    (herr : ∀ e s, J s → E (.error e) s) (hf : ∀ a s, J s → h.Always I E (f a).run s) :
    h.Always I E (p.andThen f).run s := by
  rw [run_andThen]
  refine hp.bind ?_
  intro r s' hs'
  cases r with
  | ok a => exact hf a s' hs'
  | error e => exact herr e s' hs'

/-- A result that is already there. -/
theorem always_ofExcept {E : Except TransportErrors β → σ → Prop} {r : Except TransportErrors α}
    {f : α → Fallible β} (hok : ∀ a, r = .ok a → h.Always I E (f a).run s)
    (herr : ∀ e, r = .error e → E (.error e) s) :
    h.Always I E ((ofExcept r).andThen f).run s := by
  cases r with
  | ok a => exact hok a rfl
  | error e => exact herr e rfl

/-! ### What completes -/

/-- Wherever it starts, it returns a value. -/
def Completes (h : Handler iface σ C) (I : Op → σ → Prop) (p : Fallible α) : Prop :=
  ∀ s, h.Always I (fun r _ => ∃ a, r = .ok a) p.run s

/-- What comes after a part that completes is reached. -/
theorem Completes.always_andThen {E : Except TransportErrors β → σ → Prop} {p : Fallible α}
    {f : α → Fallible β} (hp : Completes h I p)
    (hf : ∀ a s, p.run.Returns (.ok a) → h.Always I E (f a).run s) (s : σ) :
    h.Always I E (p.andThen f).run s := by
  rw [run_andThen]
  refine (Handler.Always.and_returns (hp s)).bind ?_
  rintro _ s' ⟨⟨a, rfl⟩, ha⟩
  exact hf a s' ha

theorem Completes.andThen {p : Fallible α} {f : α → Fallible β} (hp : Completes h I p)
    (hf : ∀ a, p.run.Returns (.ok a) → Completes h I (f a)) : Completes h I (p.andThen f) :=
  hp.always_andThen fun a s ha => hf a ha s

/-- A call whose answer is a value. -/
theorem completes_call {op : Op} {f : op.Ans → Except TransportErrors α} (hI : ∀ s, I op s)
    (hok : ∀ s choice r s', h op s choice = some (r, s') → ∃ a, f r = .ok a) :
    Completes h I (Task.call op fun r => .ret (f r)) :=
  fun s => ⟨hI s, hok s⟩

/-- An operation that has no error. -/
theorem completes_perform {op : Op} (hI : ∀ s, I op s) :
    Completes h I (lift (Task.perform op)) :=
  fun s => ⟨hI s, fun _ r _ _ => ⟨r, rfl⟩⟩

/-! ### Which operations are performed -/

theorem only_andThen {p : Fallible α} {f : α → Fallible β} (hp : p.run.Only A)
    (hf : ∀ a, p.run.Returns (.ok a) → (f a).run.Only A) : (p.andThen f).run.Only A := by
  rw [run_andThen]
  refine hp.bind ?_
  intro r hr
  cases r with
  | ok a => exact hf a hr
  | error e => trivial

theorem only_ofExcept (r : Except TransportErrors α) : (ofExcept r).run.Only A := trivial

/-- A call whose answer is turned into a result. -/
theorem only_call {op : Op} {f : op.Ans → Except TransportErrors α} (hop : A op) :
    (Task.call op fun r => .ret (f r)).Only A := ⟨hop, fun _ => trivial⟩

end Fallible

namespace Task

theorem only_panic {msg : String} (hop : A (.panic msg)) : (panic msg : Task α).Only A :=
  ⟨hop, fun e => e.elim⟩

/-- `Result::unwrap` aborts or does nothing. -/
theorem only_unwrap {ε : Type} {r : Except ε α} (hop : A (.panic unwrapErrMsg)) :
    (unwrap r).Only A := by
  cases r with
  | ok a => trivial
  | error e => exact only_panic hop

/-- A sum is what it is, whether or not it wraps. -/
theorem returns_addU64 {a b c : UInt64} : (addU64 a b).Returns c ↔ c = a + b := by
  by_cases h : a.toNat + b.toNat < 2 ^ 64
  · rw [addU64_of_lt h]
    exact eq_comm
  · rw [addU64_of_ge h]
    exact ⟨fun ⟨_, hc⟩ => hc.symm, fun hc => ⟨(), hc.symm⟩⟩

theorem only_addU64 {a b : UInt64} (hop : A .overflow) : (addU64 a b).Only A := by
  unfold addU64
  split
  · trivial
  · exact ⟨hop, fun _ => trivial⟩

end Task

end RdmaTransport
