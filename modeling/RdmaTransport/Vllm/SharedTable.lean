import RdmaTransport.Footprints
import RdmaTransport.Vllm.Listen

/-!
# The completion table under many connections

Every handler records under the lock: it locks the table, stores the table it has seen with one
more record, and unlocks. So the table is at any time what recording one sequence makes of an empty
one, whatever the number of connections and however they interleave, and the sequence is a merge of
what the connections have been delivered. What is known of a recorded sequence is then known of the
table: it is a window on the last records.

## Main definitions

* `LockRule` — what a thread finds at each operation on the lock
* `InStep`, `Merged` — how a thread stands to the table, and the invariant of the process
* `Windowed` — the table as a window

## Main results

* `always_handlerTask_lock` — every handler follows the rule
* `merged_of_reach` — the invariant, in every run
* `guard_of_panic` — no thread panics while it holds the lock, so the lock is never poisoned
* `windowed_of_reach` — the table is a window at any time
-/

namespace RdmaTransport

open Interaction

namespace Server

/-! ### What a thread does with the lock -/

/-- A thread locks the table when it has a request to record, stores what it has seen with that
request recorded, and unlocks after that. In between it decodes nothing and does not panic. -/
def LockRule (op : Op) (v : TaskView) : Prop :=
  match op with
  | .lockReqs => v.guard = .none ∧ v.due.isSome
  | .putReqs reqs => ∃ seen req, v.guard = .locked seen ∧ v.due = some req ∧ reqs = seen.record req
  | .unlockReqs => v.guard = .stored
  | .observe (.decoded _) => v.guard = .none ∧ v.due = none
  | .panic _ => v.guard = .none
  | _ => True

/-- The thread does not hold the lock and has nothing to record. -/
def Idle (v : TaskView) : Prop := v.guard = .none ∧ v.due = none

/-- The operation neither touches the lock nor delivers a request. -/
def Apart : Op → Prop
  | .lockReqs | .putReqs _ | .unlockReqs | .observe (.decoded _) => False
  | _ => True

variable {gpuOrdinal : Int} {gpuBuffers : List GPUMemBuffer} {i j n C : ℕ} {op : Op}
  {v v' w : TaskView} {choice : TaskView.Choice}

/-- Such an operation leaves alone what the rule is about. -/
theorem handler_apart {r : op.Ans} (hop : Apart op)
    (hr : TaskView.handler op v choice = some (r, v')) :
    v'.guard = v.guard ∧ v'.due = v.due ∧ v'.delivered = v.delivered := by
  unfold TaskView.handler at hr
  split at hr
  all_goals first
    | exact hop.elim
    | cases hr; exact ⟨rfl, rfl, rfl⟩
    | skip
  · next ks => cases hr; cases ks <;> exact ⟨rfl, rfl, rfl⟩
  · cases hr; split <;> exact ⟨rfl, rfl, rfl⟩
  · cases hr; split <;> exact ⟨rfl, rfl, rfl⟩
  · next o =>
    cases hr
    cases o with
    | decoded n => exact hop.elim
    | _ => exact ⟨rfl, rfl, rfl⟩
  · cases hr

theorem lockRule_of_idle (hop : Apart op) (hv : Idle v) : LockRule op v := by
  cases op with
  | lockReqs | putReqs _ | unlockReqs => exact hop.elim
  | observe o =>
    cases o with
    | decoded n => exact hop.elim
    | _ => trivial
  | panic msg => exact hv.1
  | _ => trivial

/-- A program that stays apart follows the rule and leaves the thread idle. -/
theorem always_of_apart {α : Type} {p : Task α} (hp : p.Only Apart) (hv : Idle v) :
    TaskView.handler.Always LockRule (fun _ => Idle) p v := by
  refine Handler.Always.of_only hp hv (fun _ _ => lockRule_of_idle) ?_
  intro op v choice r v' hop hv hr
  obtain ⟨hguard, hdue, -⟩ := handler_apart hop hr
  exact ⟨hguard.trans hv.1, hdue.trans hv.2⟩

theorem apart_of_settingUp (op : Op) (h : SettingUp op) : Apart op := by
  cases op <;> first | exact h.elim | trivial

theorem apart_of_handling {cpuMr : IbvMr} {cpuBuffer : MemBuffer} (op : Op)
    (h : Handling cpuMr cpuBuffer op) : Apart op := by
  cases op with
  | observe o => cases o <;> first | exact h.elim | trivial
  | _ => first | exact h.elim | trivial

theorem apart_of_listening (op : Op) (h : Listening op) : Apart op := by
  cases op with
  | observe o => cases o <;> first | exact h.elim | trivial
  | _ => first | exact h.elim | trivial

theorem always_listen_lock (gpuOrdinal : Int) (n : ℕ) :
    TaskView.handler.Always LockRule (fun _ => Idle) (listen gpuOrdinal n) .init :=
  always_of_apart ((only_listen gpuOrdinal n).mono apart_of_listening) ⟨rfl, rfl⟩

/-- What a handler does with a notification: a request is due from the moment it is decoded until it
is stored. -/
theorem always_handlerTail_lock (notification : Notification) (hv : Idle v) :
    TaskView.handler.Always LockRule (fun _ => Idle) (handlerTail notification) v := by
  refine ⟨hv, ?_⟩
  intro choice _ v₁ h₁
  cases choice <;> cases h₁
  by_cases hdone : notification.done > 0
  · have hnote : v.note (.decoded notification) = v := if_pos hdone
    simp only [hdone, if_true, hnote]
    exact always_of_apart (p := .call (.observe (.info "notifcation")) fun _ => .ret (some ()))
      ⟨trivial, fun _ => trivial⟩ hv
  · cases hreq : notification.reqId with
    | none =>
      have hnote : v.note (.decoded notification) = v := by
        simp only [TaskView.note, TaskView.received, hdone, hreq, if_false]
      simp only [hdone, if_false, hnote]
      exact hv
    | some req =>
      have hnote : v.note (.decoded notification) =
          { v with delivered := v.delivered ++ [req], due := some req } := by
        simp only [TaskView.note, TaskView.received, hdone, hreq, if_false]
      simp only [hdone, if_false, hnote]
      refine ⟨⟨hv.1, rfl⟩, ?_⟩
      intro choice reqs v₂ h₂
      cases choice <;> cases h₂
      refine ⟨⟨_, req, rfl, rfl, rfl⟩, ?_⟩
      intro choice _ v₃ h₃
      cases choice <;> cases h₃
      refine ⟨rfl, ?_⟩
      intro choice _ v₄ h₄
      cases choice <;> cases h₄
      exact ⟨rfl, rfl⟩

theorem always_handlerIteration_lock (cpuMr : IbvMr) (cpuBuffer : MemBuffer) (hv : Idle v) :
    TaskView.handler.Always LockRule (fun _ => Idle) (handlerIteration cpuMr cpuBuffer) v := by
  rw [handlerIteration_eq]
  refine (always_of_apart ((only_handleNotification _ _).mono apart_of_handling) hv).bind ?_
  intro r v₁ hv₁
  cases r with
  | error e => exact always_of_apart (Task.only_panic trivial) hv₁
  | ok notification => exact always_handlerTail_lock notification hv₁

theorem always_handler_lock (cpuMr : IbvMr) (cpuBuffer : MemBuffer) (n : ℕ) (hv : Idle v) :
    TaskView.handler.Always LockRule (fun _ => Idle) (handler cpuMr cpuBuffer n) v := by
  rw [handler_eq]
  refine (Handler.Always.loop (J := Idle) (R := fun _ => Idle) (fun v hv => ?_) n hv).bind ?_
  · refine (always_handlerIteration_lock cpuMr cpuBuffer hv).mono ?_
    intro o v₁ hv₁
    cases o <;> exact hv₁
  · intro o v₁ hv₁
    cases o with
    | none => exact hv₁
    | some _ => exact always_of_apart (only_handlerEnd trivial trivial) hv₁

/-- **Every handler** follows the rule. -/
theorem always_handlerTask_lock (gpuOrdinal : Int) (gpuBuffers : List GPUMemBuffer) (n : ℕ) :
    TaskView.handler.Always LockRule (fun _ => Idle) (handlerTask gpuOrdinal gpuBuffers n)
      .init := by
  rw [handlerTask_eq_bind]
  refine (always_of_apart ((only_accept _ _).mono apart_of_settingUp) ⟨rfl, rfl⟩).bind ?_
  intro r v hv
  cases r with
  | ok out => exact always_handler_lock _ _ n hv
  | error e =>
    exact always_of_apart (p := Task.call (.observe (.error _ e)) fun _ => handlerEnd)
      ⟨trivial, fun _ => only_handlerEnd trivial trivial⟩ hv

/-! ### The process -/

/-- What one thread has recorded, in its order. -/
def idsOf (i : ℕ) (recorded : List (ℕ × ReqId)) : List ReqId :=
  (recorded.filter fun q => q.1 == i).map Prod.snd

/-- How a thread stands to what it shares: it is the holder if it holds the lock, the table it has
seen is still the table, and what it has recorded is what it has been delivered, up to the request
that is due. -/
structure InStep (s : ServerState) (i : ℕ) (v : TaskView) : Prop where
  /-- It holds the lock. -/
  holds : v.guard ≠ .none ↔ s.holder = some i
  /-- What it has seen through the guard. -/
  seen : ∀ reqs, v.guard = .locked reqs → reqs = s.reqs
  /-- What it has recorded. -/
  recorded : idsOf i s.recorded ++ v.due.toList = v.delivered

/-- What recording one sequence makes of an empty table. -/
def Recorded (C : ℕ) (s : ServerState) : Prop :=
  s.reqs = (CompletionReqs.new C).recordAll (s.recorded.map Prod.snd)

/-- The table is what recording one sequence makes of an empty one, and the sequence is a merge of
what the threads have been delivered. -/
structure Merged (C : ℕ) (p : ServerPool) : Prop where
  /-- The table. -/
  reqs : Recorded C p.shared
  /-- Only threads record. -/
  known : ∀ q ∈ p.shared.recorded, q.1 < p.threads.length
  /-- Only threads hold the lock. -/
  holder : ∀ i, p.shared.holder = some i → i < p.threads.length
  /-- Every thread is in step. -/
  inStep : ∀ i t, p.threads[i]? = some t → InStep p.shared i t.world

/-! ### One operation -/

/-- What an operation of thread `i` leaves behind. -/
structure Moved (C i : ℕ) (s s' : ServerState) (v' : TaskView) : Prop where
  /-- The thread is in step. -/
  self : InStep s' i v'
  /-- The others still are. -/
  others : ∀ j w, j ≠ i → InStep s j w → InStep s' j w
  /-- The table. -/
  reqs : Recorded C s → Recorded C s'
  /-- Who has recorded. -/
  known : ∀ q ∈ s'.recorded, q ∈ s.recorded ∨ q.1 = i
  /-- Who holds the lock. -/
  holder : ∀ j, s'.holder = some j → s.holder = some j ∨ j = i

variable {s s' : ServerState} {req : ReqId} {seen : CompletionReqs}

/-- An operation on the view alone that keeps the thread in step. -/
theorem Moved.refl (h : InStep s i v') : Moved C i s s v' :=
  ⟨h, fun _ _ _ => id, id, fun _ => .inl, fun _ => .inl⟩

theorem moved_apart (h : InStep s i v) (hguard : v'.guard = v.guard) (hdue : v'.due = v.due)
    (hdelivered : v'.delivered = v.delivered) : Moved C i s s v' := by
  refine .refl ⟨?_, ?_, ?_⟩
  · rw [hguard]; exact h.holds
  · rw [hguard]; exact h.seen
  · rw [hdue, hdelivered]; exact h.recorded

theorem moved_decoded (h : InStep s i v) (hdue : v.due = none) (notification : Notification) :
    Moved C i s s (v.received notification) := by
  have hrec := h.recorded
  rw [hdue, Option.toList_none, List.append_nil] at hrec
  unfold TaskView.received
  split
  · exact .refl h
  split
  · refine .refl ⟨h.holds, h.seen, ?_⟩
    simp only [Option.toList_some, hrec]
  · exact .refl h

theorem moved_lock (h : InStep s i v) (hfree : s.holder = none) :
    Moved C i s { s with holder := some i } { v with guard := .locked s.reqs } where
  self := ⟨by simp, fun reqs hreqs => by cases hreqs; rfl, h.recorded⟩
  others j w hj hw := by
    have hnone : w.guard = .none := by
      by_contra hne
      cases hfree.symm.trans (hw.holds.mp hne)
    refine ⟨?_, ?_, hw.recorded⟩
    · simp [hnone, Ne.symm hj]
    · simp [hnone]
  reqs := id
  known _ := .inl
  holder j hj := .inr (Option.some.inj hj).symm

theorem idsOf_concat_self (recorded : List (ℕ × ReqId)) (req : ReqId) :
    idsOf i (recorded ++ [(i, req)]) = idsOf i recorded ++ [req] := by
  simp [idsOf]

theorem idsOf_concat_of_ne (hj : j ≠ i) (recorded : List (ℕ × ReqId)) (req : ReqId) :
    idsOf j (recorded ++ [(i, req)]) = idsOf j recorded := by
  simp [idsOf, Ne.symm hj]

theorem moved_put (h : InStep s i v) (hseen : v.guard = .locked seen) (hdue : v.due = some req) :
    Moved C i s
      { s with reqs := seen.record req, recorded := s.recorded ++ [(i, req)] }
      { v with guard := .stored, due := none } where
  self := by
    have hheld : s.holder = some i := h.holds.mp (by simp [hseen])
    refine ⟨by simpa using hheld, nofun, ?_⟩
    have hrec := h.recorded
    rw [hdue] at hrec
    simpa [idsOf_concat_self] using hrec
  others j w hj hw := by
    have hheld : s.holder = some i := h.holds.mp (by simp [hseen])
    have hnone : w.guard = .none := by
      by_contra hne
      exact hj (Option.some.inj ((hw.holds.mp hne).symm.trans hheld))
    refine ⟨hw.holds, by simp [hnone], ?_⟩
    simpa only [idsOf_concat_of_ne hj] using hw.recorded
  reqs hreqs := by
    have hs : s.reqs = _ := hreqs
    rw [Recorded, List.map_append, List.map_singleton, CompletionReqs.recordAll_concat, ← hs,
      h.seen seen hseen]
  known q hq := by
    rcases List.mem_append.mp hq with hq | hq
    · exact .inl hq
    · exact .inr (by rw [List.mem_singleton.mp hq])
  holder _ := .inl

theorem moved_unlock (h : InStep s i v) (hstored : v.guard = .stored) :
    Moved C i s { s with holder := none } { v with guard := .none } where
  self := ⟨by simp, nofun, h.recorded⟩
  others j w hj hw := by
    have hheld : s.holder = some i := h.holds.mp (by simp [hstored])
    have hnone : w.guard = .none := by
      by_contra hne
      exact hj (Option.some.inj ((hw.holds.mp hne).symm.trans hheld))
    exact ⟨by simp [hnone], by simp [hnone], hw.recorded⟩
  reqs := id
  known _ := .inl
  holder _ := nofun

variable {ts : List (Config iface TaskView (Option Unit))}

theorem share_apart (hop : Apart op)
    (hs : share gpuOrdinal gpuBuffers i op v s choice = some (s', ts)) : s' = s := by
  unfold share at hs
  split at hs
  · exact hop.elim
  · exact hop.elim
  · exact hop.elim
  · cases hs; rfl
  · cases hs; rfl

/-- **One operation** of a thread that follows the rule. -/
theorem moved_of_handler {r : op.Ans} (h : InStep s i v) (hrule : LockRule op v)
    (hr : TaskView.handler op v choice = some (r, v'))
    (hs : share gpuOrdinal gpuBuffers i op v s choice = some (s', ts)) :
    Moved C i s s' v' := by
  by_cases hop : Apart op
  · obtain rfl := share_apart hop hs
    obtain ⟨hguard, hdue, hdelivered⟩ := handler_apart hop hr
    exact moved_apart h hguard hdue hdelivered
  cases op with
  | lockReqs =>
    cases choice <;> cases hr
    obtain ⟨⟨hfree, rfl⟩, heq⟩ := Option.ite_none_right_eq_some.mp hs
    cases heq
    exact moved_lock h hfree
  | putReqs reqs =>
    obtain ⟨seen, req, hguard, hdue, rfl⟩ := hrule
    cases choice <;> cases hr
    cases hs
    simpa [hdue] using moved_put (C := C) h hguard hdue
  | unlockReqs =>
    cases choice <;> cases hr
    cases hs
    exact moved_unlock h hrule
  | observe o =>
    cases o with
    | decoded notification =>
      cases choice <;> cases hr
      cases hs
      exact moved_decoded h hrule.2 notification
    | _ => exact absurd trivial hop
  | _ => exact absurd trivial hop

/-! ### Whole runs -/

variable {p p' : ServerPool} {m : ℕ}

theorem inStep_init (h : ∀ q ∈ s.recorded, q.1 < j) (hholder : ∀ i, s.holder = some i → i < j) :
    InStep s j .init := by
  refine ⟨⟨fun hne => absurd rfl hne, fun hj => absurd (hholder j hj) (by omega)⟩, nofun, ?_⟩
  have hnone : s.recorded.filter (fun q => q.1 == j) = [] := by
    refine List.filter_eq_nil_iff.mpr ?_
    intro q hq hqj
    exact absurd (h q hq) (by simp [beq_iff_eq.mp hqj])
  simp [idsOf, hnone, TaskView.init]

theorem Merged.step (h : Merged C p) (hrule : p.Follows TaskView.handler (fun _ => LockRule)
      (fun _ _ => Idle)) {l : ℕ × TaskView.Choice}
    (hs : Server.step gpuOrdinal gpuBuffers p l = some p') : Merged C p' := by
  obtain ⟨i, choice⟩ := l
  obtain ⟨v, op, k, r, v', s', ts, hi, hr, he, rfl⟩ := Pool.step_eq_some hs
  have hmoved : Moved C i p.shared s' v' :=
    moved_of_handler (h.inStep i _ hi) (hrule.head hi) hr he
  have hlt : i < p.threads.length := (List.getElem?_eq_some_iff.mp hi).1
  have hknown : ∀ q ∈ s'.recorded, q.1 < p.threads.length := by
    intro q hq
    rcases hmoved.known q hq with hq | rfl
    · exact h.known q hq
    · exact hlt
  have hholder : ∀ j, s'.holder = some j → j < p.threads.length := by
    intro j hj
    rcases hmoved.holder j hj with hj | rfl
    · exact h.holder j hj
    · exact hlt
  have hlen : p.threads.length ≤ (p.threads.set i ⟨v', k r⟩ ++ ts).length := by simp
  refine ⟨hmoved.reqs h.reqs, ?_, ?_, ?_⟩
  · exact fun q hq => (hknown q hq).trans_le hlen
  · exact fun j hj => (hholder j hj).trans_le hlen
  · intro j t hj
    rcases Pool.getElem?_moved hj with ⟨rfl, rfl⟩ | ⟨hne, hj⟩ | ⟨hge, ht⟩
    · exact hmoved.self
    · exact hmoved.others j t.world hne (h.inStep j t hj)
    · obtain ⟨n, rfl⟩ := share_started he t ht
      exact inStep_init (fun q hq => (hknown q hq).trans_le hge)
        fun i hi => (hholder i hi).trans_le hge

theorem merged_started (C : ℕ) (gpuOrdinal : Int) (m : ℕ) : Merged C (started C gpuOrdinal m) := by
  refine ⟨rfl, nofun, nofun, ?_⟩
  intro i t hi
  cases i with
  | zero => cases hi; exact inStep_init nofun nofun
  | succ i => cases hi

theorem follows_lockRule
    (hr : Reach (step gpuOrdinal gpuBuffers) anyStep (started C gpuOrdinal m) p) :
    p.Follows TaskView.handler (fun _ => LockRule) (fun _ _ => Idle) :=
  follows hr (always_listen_lock gpuOrdinal m)
    fun _ _ n => always_handlerTask_lock gpuOrdinal gpuBuffers n

/-- **The table is a merge**, in every run. -/
theorem merged_of_reach
    (hr : Reach (step gpuOrdinal gpuBuffers) anyStep (started C gpuOrdinal m) p) : Merged C p := by
  induction hr with
  | start => exact merged_started C gpuOrdinal m
  | next hr _ hs ih => exact ih.step (follows_lockRule hr) hs

/-- No thread panics while it holds the lock. -/
theorem guard_of_panic (hr : Reach (step gpuOrdinal gpuBuffers) anyStep (started C gpuOrdinal m) p)
    {msg : String} {k : Empty → Task (Option Unit)}
    (hi : p.threads[i]? = some ⟨v, Task.call (.panic msg) k⟩) : p.shared.holder ≠ some i := by
  intro hholder
  have hguard : v.guard = .none := (follows_lockRule hr).head hi
  exact ((merged_of_reach hr).inStep i _ hi).holds.mpr hholder hguard

/-- The table is a window on what has been recorded. -/
structure Windowed (C : ℕ) (p : ServerPool) : Prop where
  /-- The queue has the last `C - 1` records, or all of them while there are fewer. -/
  queue : p.shared.reqs.fifoReqs.items =
    (p.shared.recorded.map Prod.snd).rtake (min p.shared.recorded.length (C - 1))
  /-- It is shorter than the table is large. -/
  below : p.shared.reqs.fifoReqs.items.length < C
  /-- It has the capacity it was created with: a reallocation would have raised it for good. -/
  capacity : p.shared.reqs.fifoReqs.capacity = C
  /-- What a connection has recorded is what it has been delivered, in the order of delivery. -/
  order : ∀ i t, p.threads[i]? = some t → idsOf i p.shared.recorded <+: t.world.delivered
  /-- Only queued requests are reported complete. -/
  complete : ∀ req, p.shared.reqs.isReqComplete req = true →
    req ∈ p.shared.reqs.fifoReqs.items

/-- **A window under any number of connections.** In every state of every run the queue has exactly
the last records, the deque has never reallocated, every connection's requests are recorded in the
order of their delivery, and only queued requests are reported complete. That includes the states
in which the lock is free; while a thread holds it, the table is the one before or after its
record. -/
theorem windowed_of_reach (hC : 2 ≤ C)
    (hr : Reach (step gpuOrdinal gpuBuffers) anyStep (started C gpuOrdinal m) p) :
    Windowed C p := by
  have hm := merged_of_reach hr
  have hreqs : p.shared.reqs = _ := hm.reqs
  have hfifo := CompletionReqs.fifoReqs_recordAll hC (p.shared.recorded.map Prod.snd)
  rw [← hreqs] at hfifo
  refine ⟨?_, ?_, ?_, ?_, ?_⟩
  · have hmin := rtake_min (p.shared.recorded.map Prod.snd) (C - 1)
    rw [List.length_map] at hmin
    rw [hfifo, hmin]
  · rw [hfifo, List.rtake, List.length_drop]
    omega
  · rw [hfifo]
  · intro i t hi
    exact ⟨_, (hm.inStep i t hi).recorded⟩
  · intro req hreq
    rw [hreqs, CompletionReqs.isReqComplete_recordAll hC] at hreq
    rw [hfifo]
    exact hreq.mem_rtake

/-- Two connections record in the order opposite to that of their delivery. -/
def crossedLabels : List (ℕ × TaskView.Choice) :=
  takeLabels ++ takeLabels ++ acceptLabels 1 ++ acceptLabels 2 ++ deliverLabels 1 ⟨0, some [1]⟩ ++
    deliverLabels 2 ⟨0, some [2]⟩ ++ [(2, .table (.new 2)), (2, .go), (2, .go),
    (1, .table ((CompletionReqs.new 2).record [2])), (1, .go), (1, .go)]

theorem windowed_of_reach_crossed : ∃ p, Reach (step 0 []) anyStep (started 2 0 3) p ∧
    p.shared.recorded = [(2, [2]), (1, [1])] ∧ Windowed 2 p := by
  obtain ⟨p, hp, hrecorded⟩ : ∃ p, Reach (step 0 []) anyStep (started 2 0 3) p ∧
      p.shared.recorded = [(2, [2]), (1, [1])] :=
    exists_reach_of_execWithin crossedLabels ⟨_, rfl, rfl⟩
  exact ⟨p, hp, hrecorded, windowed_of_reach (by decide) hp⟩

end Server

end RdmaTransport
