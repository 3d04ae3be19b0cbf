import RdmaTransport.Internal.Sessions
import RdmaTransport.Vllm.SharedTable

/-!
# The server object

A `VllmRdmaServer` over its whole life: it listens, and listens again, is asked which requests are
complete, and is shut down, while the threads that it has started run beside it. A second `listen`
replaces the table and gives up the first listener, which has then nobody left who could tell it to
stop; it goes on, and so do its handlers, with the table of their own.

A handler takes the lock of its table for two operations that wait for nobody. So whenever
`is_complete` finds the lock taken it is free again as soon as the holder has been given two more
steps, whatever the network and the other threads do.

## Main definitions

* `ServerSession` — what one `listen` has made
* `VllmRdmaServer` — the object
* `VllmRdmaServer.listen`, `isComplete`, `shutdown` — its methods
* `VllmRdmaServer.step` — a call, or an operation of a thread

## Main results

* `Server.frees_of_reach` — the holder of a lock frees it by itself, in two operations at most
* `runs_of_reach` — every session runs as it does by itself
* `delivered_of_isComplete` — what is reported has been delivered since the last `listen`
-/

namespace RdmaTransport

open Interaction

namespace Server

/-! ### The holder of the lock -/

/-- Who holds the lock stores, or drops it, and does nothing else. -/
def HoldRule (op : Op) (v : TaskView) : Prop :=
  match op with
  | .putReqs _ => ∃ seen, v.guard = .locked seen
  | .unlockReqs => v.guard = .stored
  | _ => v.guard = .none

/-- It does not hold the lock. -/
def Free (v : TaskView) : Prop := v.guard = .none

variable {gpuOrdinal : Int} {gpuBuffers : List GPUMemBuffer} {C i m n : ℕ} {op : Op}
  {v : TaskView} {p : ServerPool}

/-- A program that stays apart from the lock does not get it. -/
theorem always_of_apart_free {α : Type} {q : Task α} (hq : q.Only Apart) (hv : Free v) :
    TaskView.handler.Always HoldRule (fun _ => Free) q v := by
  refine Handler.Always.of_only hq hv ?_ ?_
  · intro op v hop hv
    cases op with
    | putReqs reqs => exact hop.elim
    | unlockReqs => exact hop.elim
    | _ => exact hv
  · intro op v choice r v' hop hv hr
    exact (handler_apart hop hr).1.trans hv

theorem always_handlerTail_hold (notification : Notification) (hv : Free v) :
    TaskView.handler.Always HoldRule (fun _ => Free) (handlerTail notification) v := by
  refine ⟨hv, ?_⟩
  intro choice _ v₁ h₁
  cases choice <;> cases h₁
  have hv₁ : Free (v.note (.decoded notification)) := by
    simp only [TaskView.note, TaskView.received]
    split
    · exact hv
    · split <;> exact hv
  by_cases hdone : notification.done > 0
  · rw [if_pos hdone]
    exact always_of_apart_free (q := .call (.observe (.info "notifcation")) fun _ => .ret (some ()))
      ⟨trivial, fun _ => trivial⟩ hv₁
  · rw [if_neg hdone]
    cases notification.reqId with
    | none => exact hv₁
    | some req =>
      refine ⟨hv₁, ?_⟩
      intro choice reqs v₂ h₂
      cases choice <;> cases h₂
      refine ⟨⟨_, rfl⟩, ?_⟩
      intro choice _ v₃ h₃
      cases choice <;> cases h₃
      refine ⟨rfl, ?_⟩
      intro choice _ v₄ h₄
      cases choice <;> cases h₄
      rfl

theorem always_handler_hold (cpuMr : IbvMr) (cpuBuffer : MemBuffer) (n : ℕ) (hv : Free v) :
    TaskView.handler.Always HoldRule (fun _ => Free) (handler cpuMr cpuBuffer n) v := by
  have hpass (v : TaskView) (hv : Free v) : TaskView.handler.Always HoldRule (fun _ => Free)
      (handlerIteration cpuMr cpuBuffer) v := by
    rw [handlerIteration_eq]
    refine (always_of_apart_free ((only_handleNotification _ _).mono apart_of_handling) hv).bind ?_
    intro r v₁ hv₁
    cases r with
    | error e => exact always_of_apart_free (Task.only_panic trivial) hv₁
    | ok notification => exact always_handlerTail_hold notification hv₁
  rw [handler_eq]
  refine (Handler.Always.loop (J := Free) (R := fun _ => Free) (fun v hv => ?_) n hv).bind ?_
  · refine (hpass v hv).mono ?_
    intro o v₁ hv₁
    cases o <;> exact hv₁
  · intro o v₁ hv₁
    cases o with
    | none => exact hv₁
    | some _ => exact always_of_apart_free (only_handlerEnd trivial trivial) hv₁

/-- **Every handler** holds the lock to store and to drop it. -/
theorem always_handlerTask_hold (gpuOrdinal : Int) (gpuBuffers : List GPUMemBuffer) (n : ℕ) :
    TaskView.handler.Always HoldRule (fun _ => Free) (handlerTask gpuOrdinal gpuBuffers n)
      .init := by
  rw [handlerTask_eq_bind]
  have hinit : Free .init := rfl
  refine (always_of_apart_free ((only_accept _ _).mono apart_of_settingUp) hinit).bind ?_
  intro r v hv
  cases r with
  | ok out => exact always_handler_hold _ _ n hv
  | error e =>
    exact always_of_apart_free (q := Task.call (.observe (.error _ e)) fun _ => handlerEnd)
      ⟨trivial, fun _ => only_handlerEnd trivial trivial⟩ hv

theorem always_listen_hold (gpuOrdinal : Int) (n : ℕ) :
    TaskView.handler.Always HoldRule (fun _ => Free) (listen gpuOrdinal n) .init := by
  have hinit : Free .init := rfl
  exact always_of_apart_free ((only_listen gpuOrdinal n).mono apart_of_listening) hinit

theorem follows_holdRule
    (hr : Reach (step gpuOrdinal gpuBuffers) anyStep (started C gpuOrdinal m) p) :
    p.Follows TaskView.handler (fun _ => HoldRule) (fun _ _ => Free) :=
  follows hr (always_listen_hold gpuOrdinal m)
    fun _ _ n => always_handlerTask_hold gpuOrdinal gpuBuffers n

/-- The lock can be had again after at most two operations of thread `i`, neither of which waits for
anything. -/
def Frees (gpuOrdinal : Int) (gpuBuffers : List GPUMemBuffer) (p : ServerPool) (i : ℕ) : Prop :=
  ∃ k ≤ 2, ∃ p', execWithin (step gpuOrdinal gpuBuffers) anyStep p (List.replicate k (i, .go)) =
    some p' ∧ p'.shared.holder = none

/-- An operation of one thread, by itself. -/
theorem step_go {k : op.Ans → Task (Option Unit)} {r : op.Ans} {v' : TaskView} {s' : ServerState}
    (hi : p.threads[i]? = some ⟨v, .vis op k⟩) (hop : TaskView.handler op v .go = some (r, v'))
    (hs : share gpuOrdinal gpuBuffers i op v p.shared .go = some (s', [])) :
    step gpuOrdinal gpuBuffers p (i, .go) = some ⟨s', p.threads.set i ⟨v', k r⟩⟩ := by
  simp [step, Pool.step, hi, hop, hs]

/-- Dropping the guard frees the lock. -/
theorem frees_of_unlockReqs {k : Unit → Task (Option Unit)}
    (hi : p.threads[i]? = some ⟨v, Task.call .unlockReqs k⟩) :
    ∃ p', execWithin (step gpuOrdinal gpuBuffers) anyStep p [(i, .go)] = some p' ∧
      p'.shared.holder = none := by
  refine ⟨⟨{ p.shared with holder := none }, p.threads.set i ⟨{ v with guard := .none }, k ()⟩⟩,
    ?_, rfl⟩
  simp only [execWithin, anyStep, if_true]
  rw [step_go hi rfl rfl, Option.bind_some]

/-- A thread that has stored drops the guard next. -/
theorem next_of_stored {prog : Task (Option Unit)}
    (h : TaskView.handler.Always HoldRule (fun _ => Free) prog v) (hguard : v.guard = .stored) :
    ∃ k, prog = Task.call .unlockReqs k := by
  cases prog with
  | ret o => exact nomatch hguard.symm.trans h
  | vis op k =>
    have hrule : HoldRule op v := h.head
    cases op with
    | unlockReqs => exact ⟨k, rfl⟩
    | putReqs reqs =>
      obtain ⟨seen, hseen⟩ := hrule
      exact nomatch hguard.symm.trans hseen
    | _ => exact nomatch hguard.symm.trans hrule

/-- **The holder frees the lock by itself**: in every state of every run, two operations of the
thread that holds it, one after the other, are enough, and nothing has to happen in between. -/
theorem frees_of_reach
    (hr : Reach (step gpuOrdinal gpuBuffers) anyStep (started C gpuOrdinal m) p)
    (hholder : p.shared.holder = some i) : Frees gpuOrdinal gpuBuffers p i := by
  have hlt := (merged_of_reach hr).holder i hholder
  obtain ⟨⟨v, prog⟩, hi⟩ : ∃ t, p.threads[i]? = some t := ⟨_, List.getElem?_eq_getElem hlt⟩
  have hguard : v.guard ≠ .none := ((merged_of_reach hr).inStep i _ hi).holds.mpr hholder
  have hfollows := follows_holdRule hr i _ hi
  cases prog with
  | ret o => exact absurd hfollows hguard
  | vis op k =>
    have hrule : HoldRule op v := hfollows.head
    cases op with
    | unlockReqs => exact ⟨1, by decide, frees_of_unlockReqs hi⟩
    | putReqs reqs =>
      obtain ⟨k', hk⟩ := next_of_stored (hfollows.2 .go () _ rfl) rfl
      have hi' : (p.threads.set i ⟨{ v with guard := .stored, due := none }, k ()⟩)[i]? =
          some ⟨{ v with guard := .stored, due := none }, Task.call .unlockReqs k'⟩ := by
        rw [List.getElem?_set_self hlt, hk]
      refine ⟨2, Nat.le_refl 2, ?_⟩
      rw [List.replicate_succ, execWithin, anyStep, if_pos rfl, step_go hi rfl rfl,
        Option.bind_some]
      exact frees_of_unlockReqs hi'
    | _ => exact absurd hrule hguard

/-- Two connections record; the first has the lock and has not stored yet. -/
theorem frees_of_reach_locked : ∃ p, Reach (step 0 []) anyStep (started 2 0 3) p ∧
    p.shared.holder = some 2 ∧ Frees 0 [] p 2 := by
  obtain ⟨p, hp, hholder⟩ : ∃ p, Reach (step 0 []) anyStep (started 2 0 3) p ∧
      p.shared.holder = some 2 :=
    exists_reach_of_execWithin (takeLabels ++ takeLabels ++ acceptLabels 1 ++ acceptLabels 2 ++
      deliverLabels 1 ⟨0, some [1]⟩ ++ deliverLabels 2 ⟨0, some [2]⟩ ++ [(2, .table (.new 2))])
      ⟨_, rfl, rfl⟩
  exact ⟨p, hp, hholder, frees_of_reach hp hholder⟩

end Server

/-! ### The object -/

/-- What one `listen` has made. -/
structure ServerSession where
  /-- The listener, its handlers and the table, unless `server_init` has failed. -/
  pool : Option ServerPool
  /-- Whether `Command::Disconnect` has been sent. -/
  told : Bool

namespace ServerSession

variable (s : ServerSession)

/-- `is_complete` of the session: `try_read` fails while the lock is held. -/
def isComplete (reqId : ReqId) : Bool :=
  s.pool.any fun p => p.shared.holder.isNone && p.shared.reqs.isReqComplete reqId

/-- `Sender::send`: the sender can be used once. -/
def tell : ServerSession := { s with told := true }

/-- The receiver of the listener yields what has been sent, or an error if the sender has been
dropped before it was used. -/
def permits (dropped : Bool) : TaskView.Choice → Bool
  | .selected .command => s.told
  | .selected .neither => dropped && !s.told
  | _ => true

/-- One operation of one thread. -/
def step (gpuOrdinal : Int) (gpuBuffers : List GPUMemBuffer) (l : ℕ × TaskView.Choice)
    (dropped : Bool) (s : ServerSession) : Option ServerSession :=
  if s.permits dropped l.2 then
    s.pool.bind fun p => (Server.step gpuOrdinal gpuBuffers p l).map fun p' =>
      { s with pool := some p' }
  else none

end ServerSession

/-- A `VllmRdmaServer`, and what it has left behind. -/
structure VllmRdmaServer where
  /-- The device. -/
  gpuOrdinal : Int
  /-- The buffers that are offered to every client. -/
  localBuffer : TensorBlocks
  /-- `cmd_sender` and `completion_reqs`: both are of the last `listen`. -/
  sessions : Sessions ServerSession

namespace VllmRdmaServer

variable (c : VllmRdmaServer)

/-- `VllmRdmaServer::new`, once the address is parsed. -/
def new (gpuOrdinal : Int) (localBuffer : TensorBlocks) : VllmRdmaServer :=
  ⟨gpuOrdinal, localBuffer, .none⟩

/-- What the handlers register. -/
def gpuBuffers : List GPUMemBuffer := c.localBuffer.map TensorBlock.intoGPUMemBuffer

/-- `VllmRdmaServer::listen`, the listener's loop unrolled `n` times; `server_init` may fail. -/
def listen (init : Bool) (n : ℕ) : VllmRdmaServer :=
  { c with
    sessions := c.sessions.replace
      (some ⟨if init then some (Server.started 1024 c.gpuOrdinal n) else none, false⟩) }

/-- `VllmRdmaServer::is_complete`. -/
def isComplete (reqId : ReqId) : Bool := c.sessions.current.any fun s => s.isComplete reqId

/-- `VllmRdmaServer::shutdown`. -/
def shutdown : VllmRdmaServer := { c with sessions := c.sessions.modify ServerSession.tell }

/-- Who moves. A thread is one of the current session or of an earlier one. -/
inductive Label
  /-- `listen` is called. -/
  | listen (init : Bool) (n : ℕ)
  /-- `shutdown` is called. -/
  | shutdown
  /-- The object is dropped, and `new` makes another with the same arguments. -/
  | drop
  /-- A thread performs its next operation. -/
  | thread (which : Option ℕ) (l : ℕ × TaskView.Choice)

/-- The steps. -/
def step (c : VllmRdmaServer) : Label → Option VllmRdmaServer
  | .listen init n => some (c.listen init n)
  | .shutdown => some c.shutdown
  | .drop => some { c with sessions := c.sessions.replace none }
  | .thread which l =>
    (c.sessions.update (ServerSession.step c.gpuOrdinal c.gpuBuffers l) which).map
      fun sessions => { c with sessions := sessions }

end VllmRdmaServer

/-! ### What every session keeps -/

namespace ServerSession

/-- What `listen` has started has run as it does by itself, and its listener has been told to stop
only if that has been sent. -/
structure Runs (gpuOrdinal : Int) (gpuBuffers : List GPUMemBuffer) (s : ServerSession) : Prop where
  /-- The threads. -/
  reach : ∀ p, s.pool = some p → ∃ n,
    Reach (Server.step gpuOrdinal gpuBuffers) anyStep (Server.started 1024 gpuOrdinal n) p
  /-- The listener. -/
  told : ∀ p t, s.pool = some p → p.threads[0]? = some t → t.world.stopped = true → s.told = true

variable {gpuOrdinal : Int} {gpuBuffers : List GPUMemBuffer} {s s' : ServerSession}
  {op : Op} {v v' : TaskView} {choice : TaskView.Choice} {reqId : ReqId}

/-- Only the branch of the command stops a listener. -/
theorem stopped_of_handler {r : op.Ans} (h : TaskView.handler op v choice = some (r, v'))
    (hstopped : v'.stopped = true) : v.stopped = true ∨ choice = .selected .command := by
  unfold TaskView.handler at h
  split at h
  all_goals first
    | cases h; exact .inl hstopped
    | skip
  next ks => cases h; cases ks <;> exact .inl hstopped
  next => cases h; split at hstopped <;> exact .inl hstopped
  next => cases h; split at hstopped <;> exact .inl hstopped
  next selected =>
    cases h
    cases selected with
    | command => exact .inr rfl
    | _ => exact .inl (by simpa using hstopped)
  next o =>
    cases h
    refine .inl ?_
    cases o with
    | decoded n =>
      simp only [TaskView.note, TaskView.received] at hstopped
      split at hstopped
      · exact hstopped
      · split at hstopped <;> exact hstopped
    | _ => exact hstopped
  next => cases h

namespace Runs

/-- **A session begins.** -/
theorem opened (init : Bool) (gpuOrdinal : Int) (gpuBuffers : List GPUMemBuffer) (n : ℕ) :
    Runs gpuOrdinal gpuBuffers
      ⟨if init then some (Server.started 1024 gpuOrdinal n) else none, false⟩ := by
  refine ⟨?_, ?_⟩
  · intro p hp
    obtain ⟨-, hp⟩ := Option.ite_none_right_eq_some.mp hp
    cases hp
    exact ⟨n, .start⟩
  · intro p t hp ht hstopped
    obtain ⟨-, hp⟩ := Option.ite_none_right_eq_some.mp hp
    cases hp
    cases ht
    cases hstopped

/-- **It is shut down.** -/
theorem tell (h : Runs gpuOrdinal gpuBuffers s) : Runs gpuOrdinal gpuBuffers s.tell :=
  ⟨h.reach, fun _ _ _ _ _ => rfl⟩

/-- **One operation of one thread.** -/
theorem step {l : ℕ × TaskView.Choice} {dropped : Bool} (h : Runs gpuOrdinal gpuBuffers s)
    (hs : s.step gpuOrdinal gpuBuffers l dropped = some s') : Runs gpuOrdinal gpuBuffers s' := by
  obtain ⟨i, choice⟩ := l
  obtain ⟨hpermits, hs⟩ := Option.ite_none_right_eq_some.mp hs
  obtain ⟨p, hp, hs⟩ := Option.bind_eq_some_iff.mp hs
  obtain ⟨p', hp', rfl⟩ := Option.map_eq_some_iff.mp hs
  refine ⟨?_, ?_⟩
  · rintro _ ⟨⟩
    obtain ⟨n, hr⟩ := h.reach p hp
    exact ⟨n, hr.next rfl hp'⟩
  · rintro _ t ⟨⟩ ht hstopped
    obtain ⟨v, op, k, r, v', shared, started, hi, hr, -, rfl⟩ := Pool.step_eq_some hp'
    rcases Pool.getElem?_moved ht with ⟨rfl, rfl⟩ | ⟨-, ht⟩ | ⟨hlen, -⟩
    · rcases stopped_of_handler hr hstopped with hold | rfl
      · exact h.told p _ hp hi hold
      · exact hpermits
    · exact h.told p t hp ht hstopped
    · have := (List.getElem?_eq_some_iff.mp hi).1
      omega

end Runs

/-- What a session reports is told by what its threads have recorded. -/
theorem Runs.isComplete_iff (h : Runs gpuOrdinal gpuBuffers s) :
    s.isComplete reqId = true ↔ ∃ p, s.pool = some p ∧ p.shared.holder = none ∧
      Survives 1023 (p.shared.recorded.map Prod.snd) reqId := by
  rw [ServerSession.isComplete, Option.any_eq_true]
  refine exists_congr fun p => and_congr_right fun hp => ?_
  obtain ⟨n, hr⟩ := h.reach p hp
  have hreqs : p.shared.reqs = _ := (Server.merged_of_reach hr).reqs
  rw [Bool.and_eq_true, Option.isNone_iff_eq_none, hreqs,
    CompletionReqs.isReqComplete_recordAll (by decide)]

/-- What is recorded has been delivered to the thread that has recorded it. -/
theorem Runs.delivered (h : Runs gpuOrdinal gpuBuffers s) {p : ServerPool} (hp : s.pool = some p)
    (hmem : reqId ∈ p.shared.recorded.map Prod.snd) :
    ∃ i : ℕ, ∃ t, p.threads[i]? = some t ∧ reqId ∈ t.world.delivered := by
  obtain ⟨n, hr⟩ := h.reach p hp
  have hmerged := Server.merged_of_reach hr
  obtain ⟨⟨i, _⟩, hq, rfl⟩ := List.mem_map.mp hmem
  have hi : p.threads[i]? = some _ := List.getElem?_eq_getElem (hmerged.known _ hq)
  refine ⟨i, _, hi, ?_⟩
  rw [← (hmerged.inStep i _ hi).recorded]
  refine List.mem_append_left _ (List.mem_map.mpr ⟨_, List.mem_filter.mpr ⟨hq, ?_⟩, rfl⟩)
  exact beq_self_eq_true i

end ServerSession

namespace VllmRdmaServer

variable {gpuOrdinal : Int} {localBuffer : TensorBlocks} {c c' : VllmRdmaServer} {l : Label}
  {reqId : ReqId}

/-- All sessions have run as they do by themselves. -/
def Runs (c : VllmRdmaServer) : Prop :=
  c.sessions.All fun _ => ServerSession.Runs c.gpuOrdinal c.gpuBuffers

theorem runs_step (h : c.Runs) (hs : c.step l = some c') : c'.Runs := by
  cases l with
  | listen init n =>
    cases hs
    refine h.replace (fun _ => id) ?_
    rintro _ ⟨⟩
    exact .opened init _ _ n
  | shutdown =>
    cases hs
    exact h.modify fun _ => ServerSession.Runs.tell
  | drop =>
    cases hs
    exact h.replace (fun _ => id) nofun
  | thread which l =>
    obtain ⟨sessions, hsessions, rfl⟩ := Option.map_eq_some_iff.mp hs
    exact h.update (fun _ _ _ => ServerSession.Runs.step) hsessions

/-- **Every session runs as it does by itself**, whatever is called and however the threads of
different sessions interleave. -/
theorem runs_of_reach (hr : Reach step anyStep (new gpuOrdinal localBuffer) c) : c.Runs :=
  hr.invariant .none fun _ _ _ h _ hs => runs_step h hs

/-- **A reported request** has been delivered over a connection of the last `listen`, and is among
the last that its connections have recorded. -/
theorem delivered_of_isComplete (hr : Reach step anyStep (new gpuOrdinal localBuffer) c)
    (hreported : c.isComplete reqId = true) :
    ∃ s p, ∃ i : ℕ, ∃ t, c.sessions.current = some s ∧ s.pool = some p ∧
      p.threads[i]? = some t ∧ reqId ∈ t.world.delivered ∧
      reqId ∈ (p.shared.recorded.map Prod.snd).rtake 1023 := by
  obtain ⟨s, hs, hreported⟩ := (Option.any_eq_true _ _).mp hreported
  have hruns := (runs_of_reach hr).current s hs
  obtain ⟨p, hp, -, hsurvives⟩ := hruns.isComplete_iff.mp hreported
  have hmem : reqId ∈ (p.shared.recorded.map Prod.snd).rtake 1023 := hsurvives.mem_rtake
  obtain ⟨i, t, hi, hdelivered⟩ := hruns.delivered hp (List.mem_of_mem_drop hmem)
  exact ⟨s, p, i, t, hs, hp, hi, hdelivered, hmem⟩

/-- The server listens, is shut down and listens again; then a connection of the second session
delivers a request while the first listener stops. -/
def listeningTwice : List Label :=
  [.listen true 1, .shutdown, .listen true 2] ++
    (Server.takeLabels ++ Server.acceptLabels 1).map (.thread none) ++
    [.thread (some 0) (0, .selected .command), .thread (some 0) (0, .code 0)] ++
    (Server.deliverLabels 1 ⟨0, some [7]⟩ ++ [(1, TaskView.Choice.table (.new 1024)), (1, .go),
      (1, .go)]).map (.thread none)

theorem delivered_of_isComplete_second : ∃ c, Reach step anyStep (new 0 []) c ∧
    c.sessions.former.length = 1 ∧ c.isComplete [7] = true ∧
    ∃ s p, ∃ i : ℕ, ∃ t, c.sessions.current = some s ∧ s.pool = some p ∧
      p.threads[i]? = some t ∧ [7] ∈ t.world.delivered ∧
      [7] ∈ (p.shared.recorded.map Prod.snd).rtake 1023 := by
  obtain ⟨c, hr, hformer, hreported⟩ : ∃ c, Reach step anyStep (new 0 []) c ∧
      c.sessions.former.length = 1 ∧ c.isComplete [7] = true :=
    exists_reach_of_execWithin listeningTwice ⟨_, rfl, rfl, rfl⟩
  exact ⟨c, hr, hformer, hreported, delivered_of_isComplete hr hreported⟩

end VllmRdmaServer

end RdmaTransport
