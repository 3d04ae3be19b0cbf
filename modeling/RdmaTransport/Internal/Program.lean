import RdmaTransport.Internal.Run

/-!
# Programs that call an environment

A program is a tree of calls: a leaf returns a value, a node performs one operation of a fixed
interface and goes on with the answer. What an operation *does* is not part of the program. It
is given separately, by a handler, so that one translation of a piece of source code can be run
against several environments.

## Two kinds of handler

`Handler` resolves the environment's freedom by a *choice* that comes with every call, so a run
is a list of choices and every behaviour of the environment is some list. `Prog.interp` is the
deterministic case, where the answer is a function of the state; it is what one wants when the
final state is the subject.

An operation that gets no answer leaves the program where it is. That is how a blocked call and
an aborted task are represented, and why neither needs a constructor of its own.

## Main definitions

* `Prog` — programs over a signature, with their monad structure
* `Prog.loop` — the first iterations of a loop
* `Handler.Always` — every operation is performed in a state that allows it
* `Prog.interp` — the deterministic run

## Main results

* `Handler.Always.bind`, `Handler.Always.loop` — the rules for sequencing and for loops
* `Handler.Always.invariant`, `Handler.Always.of_reach` — what `Always` promises, in every
  configuration a run reaches
* `Prog.interp_bind` — runs compose
-/

namespace Interaction

/-- An interface: its operations, and for each the type of its answers. -/
structure Signature where
  /-- The operations. -/
  Op : Type
  /-- What an operation answers. -/
  Ans : Op → Type

variable {S : Signature} {α β γ σ C : Type}

/-- A program over the interface `S` that returns an `α`. -/
inductive Prog (S : Signature) (α : Type) : Type
  /-- Return a value. -/
  | ret (a : α) : Prog S α
  /-- Perform an operation and go on with its answer. -/
  | vis (op : S.Op) (k : S.Ans op → Prog S α) : Prog S α

namespace Prog

/-- Run `p`, then `f` on what it returns. -/
def bind : Prog S α → (α → Prog S β) → Prog S β
  | .ret a, f => f a
  | .vis op k, f => .vis op fun r => (k r).bind f

instance : Monad (Prog S) where
  pure := .ret
  bind := bind

/-- The program that performs one operation and returns the answer. -/
def perform (op : S.Op) : Prog S (S.Ans op) := .vis op .ret

@[simp] theorem pure_eq (a : α) : (pure a : Prog S α) = .ret a := rfl

@[simp] theorem bind_eq (p : Prog S α) (f : α → Prog S β) : p >>= f = p.bind f := rfl

@[simp] theorem ret_bind (a : α) (f : α → Prog S β) : (ret a).bind f = f a := rfl

@[simp] theorem vis_bind (op : S.Op) (k : S.Ans op → Prog S α) (f : α → Prog S β) :
    (vis op k).bind f = .vis op fun r => (k r).bind f := rfl

@[simp] theorem bind_assoc (p : Prog S α) (f : α → Prog S β) (g : β → Prog S γ) :
    (p.bind f).bind g = p.bind fun a => (f a).bind g := by
  induction p with
  | ret a => rfl
  | vis op k ih => simp only [vis_bind, ih]

/-- The operation a program performs next, if it has one left. -/
def next? : Prog S α → Option S.Op
  | .ret _ => none
  | .vis op _ => some op

/-- The first `n` iterations of `loop { body }`: `some b` when an iteration broke out with `b`,
`none` when all `n` ran through. A finite run of the loop cannot be told from a run of a deep
enough unrolling, so a statement about every run of the loop is a statement about every `n`. -/
def loop (body : Prog S (Option β)) : ℕ → Prog S (Option β)
  | 0 => .ret none
  | n + 1 => body.bind fun
    | none => loop body n
    | some b => .ret (some b)

end Prog

/-! ### Handlers and runs -/

/-- What an operation does in a state, under a choice of the environment: its answer and the
state after it, or nothing when under that choice the operation does not return. -/
abbrev Handler (S : Signature) (σ C : Type) := (op : S.Op) → σ → C → Option (S.Ans op × σ)

/-- A program in the middle of a run: the state around it and what is left of it. -/
structure Config (S : Signature) (σ α : Type) where
  /-- The state of the environment. -/
  world : σ
  /-- The rest of the program. -/
  prog : Prog S α

namespace Handler

variable {h : Handler S σ C}

/-- One operation of the program, under a choice of the environment. -/
def step (h : Handler S σ C) (c : Config S σ α) (choice : C) : Option (Config S σ α) :=
  match c.prog with
  | .ret _ => none
  | .vis op k => (h op c.world choice).map fun r => ⟨r.2, k r.1⟩

/-- Whatever the environment chooses, every operation `op` the program performs finds a state `s`
with `I op s`, and if the program returns `a` it does so in a state `s` with `Q a s`. -/
def Always (h : Handler S σ C) (I : S.Op → σ → Prop) (Q : α → σ → Prop) :
    Prog S α → σ → Prop
  | .ret a, s => Q a s
  | .vis op k, s => I op s ∧
      ∀ choice r s', h op s choice = some (r, s') → Always h I Q (k r) s'

variable {I : S.Op → σ → Prop} {Q Q' : α → σ → Prop} {R : β → σ → Prop} {s : σ}

theorem Always.mono {p : Prog S α} (hp : Always h I Q p s) (hQ : ∀ a s, Q a s → Q' a s) :
    Always h I Q' p s := by
  induction p generalizing s with
  | ret a => exact hQ a s hp
  | vis op k ih => exact ⟨hp.1, fun choice r s' hr => ih r (hp.2 choice r s' hr)⟩

theorem Always.and {I' : S.Op → σ → Prop} {p : Prog S α} (hp : Always h I Q p s)
    (hp' : Always h I' Q' p s) :
    Always h (fun op s => I op s ∧ I' op s) (fun a s => Q a s ∧ Q' a s) p s := by
  induction p generalizing s with
  | ret a => exact ⟨hp, hp'⟩
  | vis op k ih =>
    exact ⟨⟨hp.1, hp'.1⟩, fun choice r s' hr =>
      ih r (hp.2 choice r s' hr) (hp'.2 choice r s' hr)⟩

/-- **Sequencing.** What `p` establishes is what `f` starts from. -/
theorem Always.bind {p : Prog S α} {f : α → Prog S β} (hp : Always h I Q p s)
    (hf : ∀ a s, Q a s → Always h I R (f a) s) : Always h I R (p.bind f) s := by
  induction p generalizing s with
  | ret a => exact hf a s hp
  | vis op k ih => exact ⟨hp.1, fun choice r s' hr => ih r (hp.2 choice r s' hr)⟩

/-- **Loops that are counted.** What every iteration takes from one number to the next. -/
theorem Always.loop_counted {J : ℕ → σ → Prop} {body : Prog S (Option β)}
    (hbody : ∀ i s, J i s → Always h I (fun o s => o.elim (J (i + 1) s) fun b => R b s) body s)
    (i n : ℕ) (hs : J i s) :
    Always h I (fun o s => o.elim (J (i + n) s) fun b => R b s) (Prog.loop body n) s := by
  induction n generalizing i s with
  | zero => exact hs
  | succ n ih =>
    refine (hbody i s hs).bind ?_
    intro o s' ho
    cases o with
    | none =>
      have hrest := ih (i + 1) ho
      rwa [Nat.add_right_comm] at hrest
    | some b => exact ho

/-- **Loops.** An invariant that every iteration keeps holds however many of them run. -/
theorem Always.loop {J : σ → Prop} {body : Prog S (Option β)}
    (hbody : ∀ s, J s → Always h I (fun o s => o.elim (J s) fun b => R b s) body s)
    (n : ℕ) (hs : J s) :
    Always h I (fun o s => o.elim (J s) fun b => R b s) (Prog.loop body n) s :=
  Always.loop_counted (J := fun _ => J) (fun _ => hbody) 0 n hs

/-- What a step is. -/
theorem step_eq_some {c c' : Config S σ α} {choice : C} (hs : step h c choice = some c') :
    ∃ op k r, c.prog = .vis op k ∧ h op c.world choice = some (r, c'.world) ∧ c'.prog = k r := by
  obtain ⟨w, p⟩ := c
  cases p with
  | ret a => cases hs
  | vis op k =>
    obtain ⟨⟨r, w'⟩, hr, rfl⟩ := Option.map_eq_some_iff.mp hs
    exact ⟨op, k, r, rfl, hr, rfl⟩

theorem Always.step {c c' : Config S σ α} {choice : C} (hp : Always h I Q c.prog c.world)
    (hs : step h c choice = some c') : Always h I Q c'.prog c'.world := by
  obtain ⟨op, k, r, hprog, hr, hk⟩ := step_eq_some hs
  rw [hprog] at hp
  rw [hk]
  exact hp.2 choice r _ hr

/-- `Always` holds again in every configuration that a run reaches. -/
theorem Always.reach {G : Config S σ α → C → Bool} {c c' : Config S σ α}
    (hp : Always h I Q c.prog c.world) (hr : Reach (Handler.step h) G c c') :
    Always h I Q c'.prog c'.world :=
  hr.invariant (P := fun c => Always h I Q c.prog c.world) hp fun _ _ _ hc _ hs => hc.step hs

/-- The next operation of a configuration finds a state that allows it. -/
theorem Always.head {w : σ} {op : S.Op} {k : S.Ans op → Prog S α}
    (hp : Always h I Q (.vis op k) w) : I op w := hp.1

/-- **Invariants.** What every operation keeps, if it finds a state that allows it, holds in every
configuration that a run reaches. -/
theorem Always.invariant {G : Config S σ α → C → Bool} {J : σ → Prop} {c c' : Config S σ α}
    (hp : Always h I Q c.prog c.world) (hJ : J c.world) (hr : Reach (Handler.step h) G c c')
    (hstep : ∀ op s choice r s', I op s → J s → h op s choice = some (r, s') → J s') :
    J c'.world := by
  refine (hr.invariant (P := fun c => Always h I Q c.prog c.world ∧ J c.world) ⟨hp, hJ⟩ ?_).2
  rintro c choice c' ⟨hp, hJ⟩ - hs
  refine ⟨hp.step hs, ?_⟩
  obtain ⟨op, k, r, hprog, hop, -⟩ := step_eq_some hs
  rw [hprog] at hp
  exact hstep _ _ _ _ _ hp.head hJ hop

/-! ### Restricted environments -/

/-- The environment `h`, as long as it makes only choices that `g` allows. -/
def within (h : Handler S σ C) (g : (op : S.Op) → σ → C → Bool) : Handler S σ C :=
  fun op s choice => if g op s choice then h op s choice else none

/-- `g` allows the choice for the next operation of a configuration. -/
def permits (g : (op : S.Op) → σ → C → Bool) (c : Config S σ α) (choice : C) : Bool :=
  match c.prog with
  | .ret _ => true
  | .vis op _ => g op c.world choice

variable {g g' : (op : S.Op) → σ → C → Bool}

theorem within_eq_some {op : S.Op} {choice : C} {r : S.Ans op × σ} :
    within h g op s choice = some r ↔ g op s choice = true ∧ h op s choice = some r := by
  rw [within]
  split
  next hg => simp [hg]
  next hg => simp [hg]

theorem permits_mono {c : Config S σ α} {choice : C}
    (hg : ∀ op s choice, g op s choice = true → g' op s choice = true)
    (h : permits g c choice = true) : permits g' c choice = true := by
  unfold permits at h ⊢
  split
  · rfl
  next op k hprog =>
    rw [hprog] at h
    exact hg _ _ _ h

/-- **A rule that is known** may be relied on: what holds as long as every operation finds a state
that meets the rule holds anyway. -/
theorem Always.rely {J : S.Op → σ → Prop} [∀ op s, Decidable (J op s)] {p : Prog S α}
    (hp : Always h J Q p s)
    (hq : Always (within h fun op s choice => g op s choice && decide (J op s)) I Q' p s) :
    Always (within h g) (fun op s => I op s ∧ J op s) (fun a s => Q' a s ∧ Q a s) p s := by
  induction p generalizing s with
  | ret a => exact ⟨hq, hp⟩
  | vis op k ih =>
    refine ⟨⟨hq.1, hp.1⟩, ?_⟩
    intro choice r s' hr
    obtain ⟨hg, hr⟩ := within_eq_some.mp hr
    have hboth : (g op s choice && decide (J op s)) = true := by simp [hg, hp.1]
    exact ih r (hp.2 choice r s' hr) (hq.2 choice r s' (within_eq_some.mpr ⟨hboth, hr⟩))

/-- A permitted step of the environment is a step of the restricted one. -/
theorem Always.step_within {c c' : Config S σ α} {choice : C}
    (hp : Always (within h g) I Q c.prog c.world) (hg : permits g c choice = true)
    (hs : Handler.step h c choice = some c') : Always (within h g) I Q c'.prog c'.world := by
  obtain ⟨op, k, r, hprog, hr, hk⟩ := step_eq_some hs
  rw [hprog] at hp
  rw [permits, hprog] at hg
  rw [hk]
  exact hp.2 choice r _ (within_eq_some.mpr ⟨hg, hr⟩)

/-- **What `Always` promises**: it holds again in every configuration that permitted steps
reach. -/
theorem Always.of_reach {c c' : Config S σ α} (hp : Always (within h g) I Q c.prog c.world)
    (hr : Reach (Handler.step h) (permits g) c c') :
    Always (within h g) I Q c'.prog c'.world :=
  hr.invariant (P := fun c => Always (within h g) I Q c.prog c.world) hp
    fun _ _ _ hc hg hs => hc.step_within hg hs

end Handler

/-! ### Deterministic runs -/

/-- How a deterministic run ends. -/
inductive Outcome (S : Signature) (σ α : Type) : Type
  /-- The program returned `a`. -/
  | done (a : α) (s : σ) : Outcome S σ α
  /-- The program performs an operation that does not return. -/
  | stuck (op : S.Op) (s : σ) : Outcome S σ α

/-- The state a deterministic run ends in. -/
def Outcome.state : Outcome S σ α → σ
  | .done _ s => s
  | .stuck _ s => s

namespace Prog

variable {h : (op : S.Op) → σ → Option (S.Ans op × σ)}

/-- Run a program against an environment whose answers are a function of its state. -/
def interp (h : (op : S.Op) → σ → Option (S.Ans op × σ)) : Prog S α → σ → Outcome S σ α
  | .ret a, s => .done a s
  | .vis op k, s =>
    match h op s with
    | some (r, s') => interp h (k r) s'
    | none => .stuck op s

@[simp] theorem interp_ret (a : α) (s : σ) : interp h (.ret a) s = .done a s := rfl

theorem interp_vis_some {op : S.Op} {k : S.Ans op → Prog S α} {s s' : σ} {r : S.Ans op}
    (hr : h op s = some (r, s')) : interp h (.vis op k) s = interp h (k r) s' := by
  simp only [interp, hr]

theorem interp_vis_none {op : S.Op} {k : S.Ans op → Prog S α} {s : σ} (hr : h op s = none) :
    interp h (.vis op k) s = .stuck op s := by
  simp only [interp, hr]

/-- **Runs compose.** A program that stops short stops the rest of the sequence with it. -/
theorem interp_bind (p : Prog S α) (f : α → Prog S β) (s : σ) :
    interp h (p.bind f) s =
      match interp h p s with
      | .done a s' => interp h (f a) s'
      | .stuck op s' => .stuck op s' := by
  induction p generalizing s with
  | ret a => rfl
  | vis op k ih =>
    simp only [vis_bind, interp]
    cases h op s with
    | none => rfl
    | some r => exact ih r.1 r.2

/-- Some environment makes `p` return `a`. -/
def Returns : Prog S α → α → Prop
  | .ret a, b => a = b
  | .vis op k, b => ∃ r : S.Ans op, (k r).Returns b

theorem returns_bind {p : Prog S α} {f : α → Prog S β} {b : β} :
    (p.bind f).Returns b ↔ ∃ a, p.Returns a ∧ (f a).Returns b := by
  induction p with
  | ret a => simp [Returns]
  | vis op k ih =>
    simp only [vis_bind, Returns, ih]
    exact ⟨fun ⟨r, a, ha, hb⟩ => ⟨a, ⟨r, ha⟩, hb⟩, fun ⟨a, ⟨r, ha⟩, hb⟩ => ⟨r, a, ha, hb⟩⟩

/-- What a deterministic run returns is what some environment makes the program return. -/
theorem returns_of_interp {p : Prog S α} {s s' : σ} {a : α} (hp : interp h p s = .done a s') :
    p.Returns a := by
  induction p generalizing s with
  | ret b => cases hp; rfl
  | vis op k ih =>
    cases hop : h op s with
    | none => rw [interp_vis_none hop] at hp; cases hp
    | some r =>
      rw [interp_vis_some hop] at hp
      exact ⟨r.1, ih r.1 hp⟩

end Prog

/-- What holds when a program returns may speak about what the program can return at all. -/
theorem Handler.Always.and_returns {h : Handler S σ C} {I : S.Op → σ → Prop} {Q : α → σ → Prop}
    {p : Prog S α} {s : σ} (hp : Always h I Q p s) :
    Always h I (fun a s => Q a s ∧ p.Returns a) p s := by
  induction p generalizing s with
  | ret a => exact ⟨hp, rfl⟩
  | vis op k ih =>
    refine ⟨hp.1, ?_⟩
    intro choice r s' hr
    exact (ih r (hp.2 choice r s' hr)).mono fun a s ha => ⟨ha.1, r, ha.2⟩

end Interaction
