import RdmaTransport.Vllm.WorkerRefines

/-!
# What one bad command costs

Nothing checks the arguments of a command before the worker meets them. A base pointer that is not
registered and an id that does not fit the page end in an `unwrap`, and a range outside its region
puts the queue pair into the error state for good. So a command that is not valid never fails
alone: it takes with it everything queued after it. `failsAlone_iff` says when there was nothing
left to lose.

## Main results

* `effectsOf_drained` — the effects of the command at a position
* `aborted_drained_iff` — when the worker of a queue with a disconnect panics
* `failsAlone_iff` — when an inserted command fails alone
-/

namespace RdmaTransport

open Interaction

namespace Fabric

variable {st : Setup} {wraps : Bool} {i : Start}

/-! ### Effects by position -/

/-- The effects of the command with number `n`. -/
def effectsOf (n : ℕ) (o : Outcome iface World (Option Unit)) : List Effect :=
  (o.state.net.effects.filter fun e => e.1 = n).map Prod.snd

/-- The effects of the command at a position, if it is carried out. -/
def effectsAt (cs : List Command) (k : ℕ) : List Effect := (cs[k]?.map Command.effects).getD []

theorem le_of_mem_numbered {n : ℕ} {cs : List Command} {e : ℕ × Effect} (h : e ∈ numbered n cs) :
    n ≤ e.1 := by
  induction cs generalizing n with
  | nil => cases h
  | cons c cs ih =>
    rcases List.mem_append.mp h with h | h
    · obtain ⟨_, _, rfl⟩ := List.mem_map.mp h
      exact Nat.le_refl n
    · have := ih h
      omega

theorem filter_numbered (n k : ℕ) (cs : List Command) :
    ((numbered n cs).filter fun e => e.1 = n + k).map Prod.snd = effectsAt cs k := by
  induction cs generalizing n k with
  | nil => rfl
  | cons c cs ih =>
    rw [numbered, List.filter_append, List.map_append]
    cases k with
    | zero =>
      have hrest : (numbered (n + 1) cs).filter (fun e => e.1 = n + 0) = [] := by
        refine List.filter_eq_nil_iff.mpr ?_
        intro e he
        have := le_of_mem_numbered he
        simp
        omega
      rw [hrest]
      simp [effectsAt, List.filter_map, Function.comp_def]
    | succ k =>
      have hhead : (c.effects.map fun e => (n, e)).filter (fun e => e.1 = n + (k + 1)) = [] := by
        simp [List.filter_map, Function.comp_def]
      rw [hhead, List.map_nil, List.nil_append, show n + (k + 1) = n + 1 + k by omega, ih]
      simp [effectsAt]

/-- **Effects.** The command at position `k` has its effects if it is carried out, and none if it
is not. -/
theorem effectsOf_drained (cs : List Command) (k : ℕ) :
    effectsOf (k + 1) (drained st wraps i cs) = effectsAt (st.effective cs) k := by
  rw [effectsOf, (drained_spec st wraps i cs).effects, Nat.add_comm k 1]
  exact filter_numbered 1 k _

/-! ### What is carried out -/

variable {pre cs post : List Command} {bad : Command}

/-- A valid prefix without a disconnect is carried out, and then the rest. -/
theorem effective_append_of_valid (hpre : ∀ c ∈ pre, st.Valid c) (hdisc : .disconnect ∉ pre) :
    st.effective (pre ++ cs) = pre ++ st.effective cs := by
  induction pre with
  | nil => rfl
  | cons c pre ih =>
    have hc : c ≠ .disconnect := fun h => hdisc (h ▸ List.mem_cons_self)
    rw [List.cons_append, Setup.effective, if_pos (hpre c List.mem_cons_self), if_neg hc,
      ih (fun d hd => hpre d (List.mem_cons_of_mem c hd)) fun h =>
        hdisc (List.mem_cons_of_mem c h)]
    rfl

/-- After a command that is not valid nothing is carried out. -/
theorem effective_append_of_invalid (hpre : ∃ c ∈ pre, ¬ st.Valid c) :
    st.effective (pre ++ cs) = st.effective pre := by
  induction pre with
  | nil => obtain ⟨_, h, _⟩ := hpre; cases h
  | cons c pre ih =>
    rw [List.cons_append, Setup.effective, Setup.effective]
    by_cases hv : st.Valid c
    · rw [if_pos hv, if_pos hv]
      obtain ⟨d, hd, hbad⟩ := hpre
      rcases List.mem_cons.mp hd with rfl | hd
      · exact absurd hv hbad
      · rw [ih ⟨d, hd, hbad⟩]
    · rw [if_neg hv, if_neg hv]

theorem effective_isInitial (st : Setup) (cs : List Command) : st.effective cs <+: cs := by
  induction cs with
  | nil => exact List.prefix_rfl
  | cons c cs ih =>
    rw [Setup.effective]
    split
    · split
      · exact ⟨cs, by simp⟩
      · exact List.cons_prefix_cons.mpr ⟨rfl, ih⟩
    · exact List.nil_prefix

theorem valid_of_mem_effective {c : Command} (h : c ∈ st.effective cs) : st.Valid c := by
  induction cs with
  | nil => cases h
  | cons d cs ih =>
    rw [Setup.effective] at h
    split at h
    next hv =>
      split at h
      · rwa [List.mem_singleton.mp h]
      · rcases List.mem_cons.mp h with rfl | h
        · exact hv
        · exact ih h
    · cases h

theorem effectsAt_append (cs : List Command) (k : ℕ) :
    effectsAt (pre ++ cs) (pre.length + k) = effectsAt cs k := by
  rw [effectsAt, List.getElem?_append_right (Nat.le_add_right _ _), Nat.add_sub_cancel_left]
  rfl

theorem effectsAt_of_length_le {k : ℕ} (h : cs.length ≤ k) : effectsAt cs k = [] := by
  rw [effectsAt, List.getElem?_eq_none h]
  rfl

/-- The worker of a queue with a disconnect panics exactly when it does not get to carry it out. -/
theorem aborted_drained_iff (hdisc : .disconnect ∈ cs) :
    Setup.Aborted (drained st wraps i cs) ↔ .disconnect ∉ st.effective cs := by
  have hends := (drained_spec st wraps i cs).ends
  refine ⟨fun habort hmem => ?_, hends.aborted hdisc⟩
  obtain ⟨w', hw'⟩ := hends.done hmem
  rw [hw'] at habort
  exact habort

/-! ### Failing alone -/

/-- A command inserted between `pre` and `post` fails alone: every valid command after it has the
effects it has without it, and the worker panics only if it would have panicked without it. -/
structure FailsAlone (st : Setup) (wraps : Bool) (i : Start) (pre : List Command) (bad : Command)
    (post : List Command) : Prop where
  /-- Transfers still move their bytes and notifications still reach the server. -/
  same : ∀ k c, post[k]? = some c → st.Valid c →
    effectsOf (pre.length + 1 + k + 1) (drained st wraps i (pre ++ bad :: post)) =
      effectsOf (pre.length + k + 1) (drained st wraps i (pre ++ post))
  /-- The task does not abort. -/
  noAbort : Setup.Aborted (drained st wraps i (pre ++ bad :: post)) →
    Setup.Aborted (drained st wraps i (pre ++ post))

/-- After a command that is not valid nothing is carried out, whatever is inserted. -/
theorem failsAlone_of_lost (st : Setup) (wraps : Bool) (i : Start) (bad : Command)
    (hlost : ∃ c ∈ pre, ¬ st.Valid c) (hpost : .disconnect ∈ post) :
    FailsAlone st wraps i pre bad post where
  same k c _ _ := by
    have hlen := (effective_isInitial st pre).length_le
    rw [effectsOf_drained, effectsOf_drained, effective_append_of_invalid hlost,
      effective_append_of_invalid hlost, effectsAt_of_length_le (by omega),
      effectsAt_of_length_le (by omega)]
  noAbort := by
    rw [aborted_drained_iff (List.mem_append_right _ (List.mem_cons_of_mem _ hpost)),
      aborted_drained_iff (List.mem_append_right _ hpost), effective_append_of_invalid hlost,
      effective_append_of_invalid hlost]
    exact id

/-- A valid command takes its place among the others. -/
theorem failsAlone_of_valid (st : Setup) (wraps : Bool) (i : Start)
    (hvalid : ∀ c ∈ pre, st.Valid c) (hpre : .disconnect ∉ pre) (hv : st.Valid bad)
    (hbad : bad ≠ .disconnect) (hpost : .disconnect ∈ post) :
    FailsAlone st wraps i pre bad post := by
  have hwithout : st.effective (pre ++ post) = pre ++ st.effective post :=
    effective_append_of_valid hvalid hpre
  have hwith : st.effective (pre ++ bad :: post) = pre ++ bad :: st.effective post := by
    rw [effective_append_of_valid hvalid hpre, Setup.effective, if_pos hv, if_neg hbad]
  constructor
  · intro k c _ _
    rw [effectsOf_drained, effectsOf_drained, hwith, hwithout, effectsAt_append, Nat.add_assoc,
      effectsAt_append, Nat.add_comm 1 k]
    rfl
  · rw [aborted_drained_iff (List.mem_append_right _ (List.mem_cons_of_mem _ hpost)),
      aborted_drained_iff (List.mem_append_right _ hpost), hwith, hwithout]
    intro h h'
    refine h ?_
    rcases List.mem_append.mp h' with h' | h'
    · exact List.mem_append_left _ h'
    · exact List.mem_append_right _ (List.mem_cons_of_mem _ h')

/-- A command that is not valid takes with it all that would be carried out after it. -/
theorem failsAlone_iff_of_not_valid (st : Setup) (wraps : Bool) (i : Start)
    (hvalid : ∀ c ∈ pre, st.Valid c) (hpre : .disconnect ∉ pre) (hv : ¬ st.Valid bad)
    (hpost : .disconnect ∈ post) :
    FailsAlone st wraps i pre bad post ↔ ∀ c ∈ st.effective post, c.effects = [] := by
  have hwithout : st.effective (pre ++ post) = pre ++ st.effective post :=
    effective_append_of_valid hvalid hpre
  have hwith : st.effective (pre ++ bad :: post) = pre := by
    rw [effective_append_of_valid hvalid hpre, Setup.effective, if_neg hv, List.append_nil]
  have hlost (k : ℕ) : effectsOf (pre.length + 1 + k + 1)
      (drained st wraps i (pre ++ bad :: post)) = [] := by
    rw [effectsOf_drained, hwith, effectsAt_of_length_le (by omega)]
  have hkept (k : ℕ) : effectsOf (pre.length + k + 1) (drained st wraps i (pre ++ post)) =
      effectsAt (st.effective post) k := by
    rw [effectsOf_drained, hwithout, effectsAt_append]
  constructor
  · intro h c hc
    obtain ⟨k, hk⟩ := List.getElem?_of_mem hc
    have hpostk : post[k]? = some c := by
      obtain ⟨rest, hrest⟩ := effective_isInitial st post
      rw [← hrest, List.getElem?_append_left (List.getElem?_eq_some_iff.mp hk).1, hk]
    have hsame := h.same k c hpostk (valid_of_mem_effective hc)
    rw [hlost, hkept, effectsAt, hk] at hsame
    exact hsame.symm
  · intro heffects
    constructor
    · intro k c _ _
      rw [hlost, hkept, effectsAt]
      cases hk : (st.effective post)[k]? with
      | none => rfl
      | some d => exact (heffects d (List.mem_of_getElem? hk)).symm
    · -- the disconnect has an effect, so it is not carried out without the command either
      intro _
      rw [aborted_drained_iff (List.mem_append_right _ hpost), hwithout]
      intro h'
      rcases List.mem_append.mp h' with h' | h'
      · exact hpre h'
      · exact absurd (heffects _ h') (by simp [Command.effects])

/-- **When a command fails alone.** A command inserted into a queue before its disconnect fails
alone if and only if it is valid, or a command before it is not, or nothing that is carried out
after it without it has any effect. The disconnect is itself carried out and has an effect, its done
notification. So in the last case a command after the inserted one is not valid, and those before
that are transfers of no bytes. -/
theorem failsAlone_iff (st : Setup) (wraps : Bool) (i : Start) (hpre : .disconnect ∉ pre)
    (hbad : bad ≠ .disconnect) (hpost : .disconnect ∈ post) :
    FailsAlone st wraps i pre bad post ↔
      st.Valid bad ∨ (∃ c ∈ pre, ¬ st.Valid c) ∨ ∀ c ∈ st.effective post, c.effects = [] := by
  by_cases hlost : ∃ c ∈ pre, ¬ st.Valid c
  · exact iff_of_true (failsAlone_of_lost st wraps i bad hlost hpost) (.inr (.inl hlost))
  · have hvalid : ∀ c ∈ pre, st.Valid c := fun c hc => by_contra fun h => hlost ⟨c, hc, h⟩
    by_cases hv : st.Valid bad
    · exact iff_of_true (failsAlone_of_valid st wraps i hvalid hpre hv hbad hpost) (.inl hv)
    · rw [failsAlone_iff_of_not_valid st wraps i hvalid hpre hv hpost]
      simp only [hv, hlost, false_or]

theorem failsAlone_iff_twoBuffers :
    FailsAlone twoBuffers false ⟨fun _ _ => 1, fun _ _ => 2, false, fun n => n == 0, .new 1024⟩
        [.complete [7]] (.send ⟨65536, 0, 8⟩ ⟨262144, 0, 0⟩) [.disconnect] ↔
      twoBuffers.Valid (.send ⟨65536, 0, 8⟩ ⟨262144, 0, 0⟩) ∨
        (∃ c ∈ [Command.complete [7]], ¬ twoBuffers.Valid c) ∨
          ∀ c ∈ twoBuffers.effective [.disconnect], c.effects = [] :=
  failsAlone_iff twoBuffers false _ (by decide) (by decide) (by decide)

/-- A push from a base pointer that is not registered, and the announcement after it never reaches
the server. -/
theorem unregistered_base_fails_all :
    ¬ FailsAlone twoBuffers false
      ⟨fun _ _ => 1, fun _ _ => 2, false, fun n => n == 0, .new 1024⟩ []
      (.send ⟨4242, 0, 8⟩ ⟨262144, 0, 0⟩) [.complete [7], .disconnect] := by
  intro h
  have hbad : ¬ twoBuffers.Valid (.send ⟨4242, 0, 8⟩ ⟨262144, 0, 0⟩) := by
    intro hv
    obtain ⟨⟨q, hq, -⟩, -⟩ := hv (by decide)
    cases hq
  have hgood : twoBuffers.Valid (.complete [7]) := by
    change (⟨0, some [7]⟩ : Notification).serializedSize ≤ _
    rw [Notification.serializedSize_some]
    decide
  have hsame := h.same 0 (.complete [7]) rfl hgood
  rw [effectsOf_drained, effectsOf_drained, List.nil_append, List.nil_append, Setup.effective,
    if_neg hbad, Setup.effective, if_pos hgood, if_neg (by decide)] at hsame
  cases hsame

end Fabric

end RdmaTransport
