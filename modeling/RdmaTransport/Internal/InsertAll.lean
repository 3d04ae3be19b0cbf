import Mathlib.Data.List.AList
import Mathlib.Data.List.Induction

/-!
# A map filled from a list

Inserting the elements of a list into a map one after the other is how a list with possibly
repeated keys becomes a map. What a key then stands for is its *last* occurrence.

## Main results

* `lookup_insertAll` — every lookup, with the repetitions
* `lastAt_of_nodup` — without repetitions every element is the last at its key
* `mem_insertAll` — the keys
* `entries_insertAll_perm` — without repetitions, the entries
-/

namespace Interaction

variable {κ α β : Type} [DecidableEq κ] {key : β → κ} {val : β → α}

/-- The last element of a list with a given key. -/
def lastAt (key : β → κ) (l : List β) (k : κ) : Option β := l.reverse.find? fun x => key x = k

/-- Insert `val x` at `key x` for each `x` of the list, in the order of the list. -/
def insertAll (key : β → κ) (val : β → α) (l : List β) (m : AList fun _ : κ => α) :
    AList fun _ : κ => α :=
  l.foldl (fun m x => m.insert (key x) (val x)) m

theorem lastAt_concat (l : List β) (x : β) (k : κ) :
    lastAt key (l ++ [x]) k = if key x = k then some x else lastAt key l k := by
  rw [lastAt, List.reverse_concat, List.find?_cons]
  by_cases h : key x = k <;> simp [h, lastAt]

theorem insertAll_concat (l : List β) (x : β) (m : AList fun _ : κ => α) :
    insertAll key val (l ++ [x]) m = (insertAll key val l m).insert (key x) (val x) := by
  simp [insertAll]

theorem lastAt_map {γ : Type} (key : β → κ) (f : γ → β) (l : List γ) (k : κ) :
    lastAt key (l.map f) k = (lastAt (fun x => key (f x)) l k).map f := by
  rw [lastAt, ← List.map_reverse, List.find?_map]
  rfl

theorem exists_lastAt (key : β → κ) {l : List β} {x : β} (hx : x ∈ l) :
    ∃ y, lastAt key l (key x) = some y ∧ key y = key x := by
  induction l using List.reverseRecOn with
  | nil => cases hx
  | append_singleton l y ih =>
    by_cases h : key y = key x
    · exact ⟨y, by rw [lastAt_concat, if_pos h], h⟩
    · rcases List.mem_append.mp hx with hx | hx
      · obtain ⟨z, hz, hkey⟩ := ih hx
        exact ⟨z, by rw [lastAt_concat, if_neg h, hz], hkey⟩
      · exact absurd (congrArg key (List.mem_singleton.mp hx).symm) h

theorem lastAt_eq_none {l : List β} {k : κ} : lastAt key l k = none ↔ k ∉ l.map key := by
  simp [lastAt, List.find?_eq_none]

theorem key_of_lastAt {l : List β} {k : κ} {x : β} (h : lastAt key l k = some x) : key x = k := by
  simpa using List.find?_some h

theorem mem_of_lastAt {l : List β} {k : κ} {x : β} (h : lastAt key l k = some x) : x ∈ l := by
  simpa using List.mem_of_find?_eq_some h

/-- With each key at most once, every element is the last at its key. -/
theorem lastAt_of_nodup {l : List β} (hl : (l.map key).Nodup) {x : β} (hx : x ∈ l) :
    lastAt key l (key x) = some x := by
  cases h : lastAt key l (key x) with
  | none => exact absurd (List.mem_map_of_mem hx) (lastAt_eq_none.mp h)
  | some y =>
    exact congrArg some (List.inj_on_of_nodup_map hl (mem_of_lastAt h) hx (key_of_lastAt h))

/-- **Lookups.** A key stands for its last occurrence in the list, and for what the map had before
if it does not occur. -/
theorem lookup_insertAll (l : List β) (m : AList fun _ : κ => α) (k : κ) :
    (insertAll key val l m).lookup k = ((lastAt key l k).map val).or (m.lookup k) := by
  induction l using List.reverseRecOn with
  | nil => rfl
  | append_singleton l x ih =>
    rw [insertAll_concat, lastAt_concat]
    by_cases h : key x = k
    · subst h
      rw [AList.lookup_insert, if_pos rfl, Option.map_some, Option.some_or]
    · rw [AList.lookup_insert_ne (Ne.symm h), ih, if_neg h]

theorem mem_insertAll {l : List β} {m : AList fun _ : κ => α} {k : κ} :
    k ∈ insertAll key val l m ↔ k ∈ l.map key ∨ k ∈ m := by
  rw [← AList.lookup_isSome, lookup_insertAll, ← AList.lookup_isSome (s := m)]
  cases h : lastAt key l k with
  | none => simp [lastAt_eq_none.mp h]
  | some x =>
    have hk : k ∈ l.map key := by
      rw [← key_of_lastAt h]
      exact List.mem_map_of_mem (mem_of_lastAt h)
    simp [hk]

/-- **Entries.** With each key at most once, the map has the elements of the list in some order. -/
theorem entries_insertAll_perm {l : List β} (hl : (l.map key).Nodup) :
    ((insertAll key val l (∅ : AList fun _ : κ => α)).entries.map Sigma.snd).Perm (l.map val) := by
  induction l using List.reverseRecOn with
  | nil => exact .refl _
  | append_singleton l x ih =>
    rw [List.map_append, List.nodup_append] at hl
    have hx : key x ∉ insertAll key val l (∅ : AList fun _ : κ => α) := by
      rw [mem_insertAll]
      rintro (hmem | hmem)
      · exact hl.2.2 _ hmem (key x) (List.mem_singleton_self _) rfl
      · exact AList.notMem_empty _ hmem
    rw [insertAll_concat, AList.entries_insert_of_notMem hx, List.map_append, List.map_cons]
    exact ((ih hl.1).cons _).trans (List.perm_append_singleton _ _).symm

end Interaction
