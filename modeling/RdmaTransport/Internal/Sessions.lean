import Mathlib.Data.List.Basic

/-!
# Sessions that are replaced

An object works with one session at a time. Opening another, or dropping the object, gives the
current one up: nothing the object does reaches it any more, but what has been started in it runs
on. So the sessions of a process are the current one and a list of former ones, and a step happens
in one of them, which is told whether it has been given up.

A property may depend on that. It holds of all sessions if it holds of a new one, survives being
given up, and is kept by the steps of a session.

## Main definitions

* `Sessions` — the current session and the former ones
* `Sessions.All` — a property of every session, given whether it has been given up

## Main results

* `Sessions.All.replace`, `All.update`, `All.modify` — what every way to change the sessions keeps
-/

namespace Interaction

variable {σ : Type}

/-- The session an object works with, and those that it has given up. -/
structure Sessions (σ : Type) where
  /-- The current one. -/
  current : Option σ
  /-- The former ones. -/
  former : List σ

namespace Sessions

variable (c : Sessions σ)

/-- No session has been opened. -/
def none : Sessions σ := ⟨.none, []⟩

/-- The current session is given up for another, or for none. -/
def replace (next : Option σ) : Sessions σ := ⟨next, c.former ++ c.current.toList⟩

/-- The object does something to the current session. -/
def modify (f : σ → σ) : Sessions σ := { c with current := c.current.map f }

/-- A step of the current session, or of a former one. The step is told which of the two it is. -/
def update (f : Bool → σ → Option σ) : Option ℕ → Option (Sessions σ)
  | .none => c.current.bind fun s => (f false s).map fun s' => { c with current := some s' }
  | some i => c.former[i]?.bind fun s =>
      (f true s).map fun s' => { c with former := c.former.set i s' }

/-- The property of the current session is `P false` and that of a former one `P true`. -/
structure All (P : Bool → σ → Prop) (c : Sessions σ) : Prop where
  /-- The current one has it. -/
  current : ∀ s, c.current = some s → P false s
  /-- So have the former ones. -/
  former : ∀ s ∈ c.former, P true s

namespace All

variable {P Q : Bool → σ → Prop} {c c' : Sessions σ}

theorem mono (h : All P c) (hPQ : ∀ b s, P b s → Q b s) : All Q c :=
  ⟨fun s hs => hPQ _ s (h.current s hs), fun s hs => hPQ _ s (h.former s hs)⟩

theorem none : All P none := ⟨nofun, nofun⟩

/-- **Another session** is opened, or the object is dropped. -/
theorem replace {next : Option σ} (h : All P c) (hgiven : ∀ s, P false s → P true s)
    (hnext : ∀ s, next = some s → P false s) : All P (c.replace next) := by
  refine ⟨hnext, ?_⟩
  intro s hs
  rcases List.mem_append.mp hs with hs | hs
  · exact h.former s hs
  · exact hgiven s (h.current s (Option.mem_toList.mp hs))

/-- **The object** does something. -/
theorem modify {f : σ → σ} (h : All P c) (hf : ∀ s, P false s → P false (f s)) :
    All P (c.modify f) := by
  refine ⟨?_, h.former⟩
  intro s hs
  obtain ⟨t, ht, rfl⟩ := Option.map_eq_some_iff.mp hs
  exact hf t (h.current t ht)

/-- **A session** makes a step. -/
theorem update {f : Bool → σ → Option σ} {which : Option ℕ} (h : All P c)
    (hf : ∀ b s s', P b s → f b s = some s' → P b s') (hs : c.update f which = some c') :
    All P c' := by
  cases which with
  | none =>
    obtain ⟨s, hcurrent, hs⟩ := Option.bind_eq_some_iff.mp hs
    obtain ⟨s', hs', rfl⟩ := Option.map_eq_some_iff.mp hs
    refine ⟨?_, h.former⟩
    rintro _ ⟨⟩
    exact hf false s s' (h.current s hcurrent) hs'
  | some i =>
    obtain ⟨s, hi, hs⟩ := Option.bind_eq_some_iff.mp hs
    obtain ⟨s', hs', rfl⟩ := Option.map_eq_some_iff.mp hs
    refine ⟨h.current, ?_⟩
    intro t ht
    rcases List.mem_or_eq_of_mem_set ht with ht | rfl
    · exact h.former t ht
    · exact hf true s t (h.former s (List.mem_of_getElem? hi)) hs'

end All

end Sessions

end Interaction
