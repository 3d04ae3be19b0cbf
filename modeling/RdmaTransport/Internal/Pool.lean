import Mathlib.Data.List.Basic
import RdmaTransport.Internal.Program

/-!
# Threads that share a state

A pool is a list of threads around a shared state. Each thread is a program with a view of its own,
and the label of a step is the thread that moves together with the environment's choice. What the
operation means to the thread's view is a `Handler`; what it means to the shared state, and which
threads it starts, is a `SharedHandler`, which may also refuse it. New threads go to the end of the
list, so the number of a thread never changes.

What is true of each thread alone, against every choice of its environment, is not affected by the
others: `Pool.Follows` is kept by every step. An invariant of the pool then has to look at the
operation that is performed and at nothing else.

## Main definitions

* `Pool.step` — one operation of one thread
* `Pool.Follows` — every thread meets its specification from where it is

## Main results

* `Pool.step_eq_some` — everything a step can do
* `Pool.follows_of_reach` — specifications of the threads hold throughout a run
-/

namespace Interaction

variable {S : Signature} {σ V α C : Type}

/-- A shared state and the threads around it. -/
structure Pool (S : Signature) (σ V α : Type) where
  /-- What the threads share. -/
  shared : σ
  /-- The threads, in the order in which they were started. -/
  threads : List (Config S V α)

/-- What an operation of a thread does to the shared state, and the threads that it starts. -/
abbrev SharedHandler (S : Signature) (σ V α C : Type) :=
  (i : ℕ) → (op : S.Op) → V → σ → C → Option (σ × List (Config S V α))

namespace Pool

variable {h : Handler S V C} {act : SharedHandler S σ V α C} {p p' : Pool S σ V α}
  {i j : ℕ} {choice : C}

/-- One operation of one thread, under a choice of the environment. -/
def step (h : Handler S V C) (act : SharedHandler S σ V α C) (p : Pool S σ V α) (l : ℕ × C) :
    Option (Pool S σ V α) :=
  match p.threads[l.1]? with
  | some ⟨v, .vis op k⟩ =>
    (h op v l.2).bind fun r =>
      (act l.1 op v p.shared l.2).map fun e =>
        ⟨e.1, p.threads.set l.1 ⟨r.2, k r.1⟩ ++ e.2⟩
  | _ => none

/-- **Everything a step can do.** -/
theorem step_eq_some (hs : step h act p (i, choice) = some p') :
    ∃ v op k r v' s' started, p.threads[i]? = some ⟨v, .vis op k⟩ ∧
      h op v choice = some (r, v') ∧ act i op v p.shared choice = some (s', started) ∧
        p' = ⟨s', p.threads.set i ⟨v', k r⟩ ++ started⟩ := by
  unfold step at hs
  split at hs
  next v op k hi =>
    obtain ⟨⟨r, v'⟩, hr, hs⟩ := Option.bind_eq_some_iff.mp hs
    obtain ⟨⟨s', started⟩, he, rfl⟩ := Option.map_eq_some_iff.mp hs
    exact ⟨v, op, k, r, v', s', started, hi, hr, he, rfl⟩
  · cases hs

/-- Where a thread of a pool comes from that has made a step: it is the one that moved, one that
did not, or a new one. -/
theorem getElem?_moved {threads started : List (Config S V α)} {c t : Config S V α}
    (h : (threads.set i c ++ started)[j]? = some t) :
    (j = i ∧ t = c) ∨ (j ≠ i ∧ threads[j]? = some t) ∨
      (threads.length ≤ j ∧ t ∈ started) := by
  rcases Nat.lt_or_ge j threads.length with hlt | hge
  · rw [List.getElem?_append_left (by simpa using hlt)] at h
    by_cases hji : j = i
    · subst hji
      rw [List.getElem?_set_self hlt] at h
      exact .inl ⟨rfl, (Option.some.inj h).symm⟩
    · rw [List.getElem?_set_ne (Ne.symm hji)] at h
      exact .inr (.inl ⟨hji, h⟩)
  · rw [List.getElem?_append_right (by simpa using hge)] at h
    exact .inr (.inr ⟨hge, List.mem_of_getElem? h⟩)

/-! ### Threads that meet their specifications -/

variable {I : ℕ → S.Op → V → Prop} {Q : ℕ → α → V → Prop}

/-- Every thread meets its specification from where it is, whatever its environment chooses. -/
def Follows (h : Handler S V C) (I : ℕ → S.Op → V → Prop) (Q : ℕ → α → V → Prop)
    (p : Pool S σ V α) : Prop :=
  ∀ i t, p.threads[i]? = some t → Handler.Always h (I i) (Q i) t.prog t.world

/-- The threads that operations start meet their specifications. -/
def Starts (h : Handler S V C) (I : ℕ → S.Op → V → Prop) (Q : ℕ → α → V → Prop)
    (act : SharedHandler S σ V α C) (p : Pool S σ V α) : Prop :=
  ∀ i op v choice s' started, act i op v p.shared choice = some (s', started) →
    ∀ t ∈ started, ∀ j, p.threads.length ≤ j → Handler.Always h (I j) (Q j) t.prog t.world

theorem Follows.step (hp : Follows h I Q p) (hstart : Starts h I Q act p)
    (hs : Pool.step h act p (i, choice) = some p') : Follows h I Q p' := by
  obtain ⟨v, op, k, r, v', s', started, hi, hr, he, rfl⟩ := step_eq_some hs
  intro j t hj
  rcases getElem?_moved hj with ⟨rfl, rfl⟩ | ⟨-, hj⟩ | ⟨hlen, ht⟩
  · exact (hp j _ hi).2 choice r v' hr
  · exact hp j t hj
  · exact hstart i op v choice s' started he t ht j hlen

/-- **The specifications of the threads** hold throughout a run. -/
theorem follows_of_reach {G : Pool S σ V α → ℕ × C → Bool} (hr : Reach (step h act) G p p')
    (hp : Follows h I Q p) (hlen : 0 < p.threads.length)
    (hstart : ∀ q : Pool S σ V α, 0 < q.threads.length → Starts h I Q act q) :
    Follows h I Q p' := by
  refine (hr.invariant (P := fun q => 0 < q.threads.length ∧ Follows h I Q q) ⟨hlen, hp⟩ ?_).2
  intro q l q' hq _ hs
  refine ⟨?_, hq.2.step (hstart q hq.1) hs⟩
  have hpos := hq.1
  obtain ⟨v, op, k, r, v', s', started, -, -, -, rfl⟩ := step_eq_some hs
  simp only [List.length_append, List.length_set]
  omega

/-- The operation that a thread performs next finds what its specification says. -/
theorem Follows.head (hp : Follows h I Q p) {v : V} {op : S.Op} {k : S.Ans op → Prog S α}
    (hi : p.threads[i]? = some ⟨v, .vis op k⟩) : I i op v := (hp i _ hi).1

/-- A thread that has returned did so as its specification says. -/
theorem Follows.returned (hp : Follows h I Q p) {v : V} {a : α}
    (hi : p.threads[i]? = some ⟨v, .ret a⟩) : Q i a v := hp i _ hi

end Pool

end Interaction
