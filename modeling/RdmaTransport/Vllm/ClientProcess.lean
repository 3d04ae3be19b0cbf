import RdmaTransport.Internal.Sessions
import RdmaTransport.Vllm.Calls
import RdmaTransport.Vllm.WorkerTrace

/-!
# The client process

A `VllmRdmaClient` over its whole life: it is connected, and connected again, its methods are
called, and the workers it has started run beside it, each at its own pace. A second `connect`
replaces the channel and the table by new ones. The worker of the first goes on: it drains what is
queued and ends. A `connect` that fails after the address has been parsed has replaced them too, and
leaves an object without a worker.

Everything the network and the card do is up to the environment: what calls return, which
completions are polled, whether a worker panics. Whatever they do, the commands that a worker takes
are those that its channel has accepted, in order, and what it hands to `ibv_post_send` and records
is told by them; a call is refused only by a channel that is full or whose worker has ended; and a
request is reported as complete only if it has been called for since the last `connect`, with the
requests of everything that was called before it handed over.

## Main definitions

* `ClientSession` — what one `connect` has made: a channel, a table and perhaps a worker
* `VllmRdmaClient` — the object
* `VllmRdmaClient.connect`, `send`, `recv`, `complete`, `shutdown`, `isComplete` — its methods
* `VllmRdmaClient.step` — a call, or an operation of a worker

## Main results

* `orderly_of_reach` — every session is in order, in every run
* `handed_of_isComplete` — what a reported request says
-/

namespace RdmaTransport

open Interaction Fabric

/-! ### One session -/

/-- A worker: what it owns, and how far it has got. -/
structure ClientWorker where
  /-- What `connect` has handed to it. -/
  session : Session
  /-- What it has done, and the rest of its program. -/
  thread : Config iface WorkerView (Option Unit)

/-- What one `connect` has made. -/
structure ClientSession where
  /-- The commands in the channel. -/
  queue : List Command
  /-- Whether the worker's end of the channel is there. -/
  receiver : Bool
  /-- The commands of all calls, in their order. -/
  called : List Command
  /-- Those that the channel has taken. -/
  accepted : List Command
  /-- The table. -/
  reqs : CompletionReqs
  /-- Whether its lock is held. -/
  locked : Bool
  /-- The worker, if one has been started. -/
  worker : Option ClientWorker

namespace ClientSession

variable (s : ClientSession)

/-- A new channel and a new table. Without a worker, the other end of the channel is gone. -/
def opened (worker : Option ClientWorker) : ClientSession :=
  ⟨[], worker.isSome, [], [], .new 1024, false, worker⟩

/-- What the worker has done. -/
def view : WorkerView := s.worker.elim .init fun w => w.thread.world

/-- There is no worker any more. -/
def hasEnded (wraps : Bool) : Bool := s.worker.all fun w => Client.hasEnded wraps w.thread.prog

/-- `Sender::try_send`. -/
def trySend (c : Command) : Except TrySendError ClientSession :=
  if s.receiver then
    if s.queue.length < channelCapacity then
      .ok { s with queue := s.queue ++ [c], accepted := s.accepted ++ [c] }
    else .error (.full c)
  else .error (.closed c)

/-- A call: what becomes of the session, and why the command is refused, if it is. -/
def tell (c : Command) : ClientSession × Option TrySendError :=
  let s := { s with called := s.called ++ [c] }
  match s.trySend c with
  | .ok s' => (s', none)
  | .error e => (s, some e)

/-- `is_complete` of the session: `try_read` fails while the lock is held. -/
def isComplete (reqId : ReqId) : Bool := !s.locked && s.reqs.isReqComplete reqId

/-- What an operation of the worker asks of the channel and the lock, and does to them. `dropped`
says that the sender is gone. -/
def perform (wraps dropped : Bool) : Op → WorkerView.Choice → Option ClientSession
  | .recvCmd, .command (some c) =>
    match s.queue with
    | d :: ds => if d = c then some { s with queue := ds } else none
    | [] => none
  | .recvCmd, .command none => if s.queue.isEmpty && dropped then some s else none
  | .lockReqs, .table reqs =>
    if s.locked then none else if reqs = s.reqs then some { s with locked := true } else none
  | .putReqs reqs, _ => some { s with reqs := reqs }
  | .unlockReqs, _ => some { s with locked := false }
  | .overflow, _ => if wraps then some s else none
  | _, _ => some s

/-- The worker performs its next operation. -/
def work (wraps dropped : Bool) (choice : WorkerView.Choice) : Option ClientSession :=
  s.worker.bind fun w =>
    match w.thread.prog with
    | .ret _ => none
    | .vis op k => (WorkerView.handler op w.thread.world choice).bind fun r =>
        (s.perform wraps dropped op choice).map fun s' =>
          { s' with worker := some { w with thread := ⟨r.2, k r.1⟩ } }

/-- What the worker owned is dropped. -/
def dropReceiver (wraps : Bool) : Option ClientSession :=
  if s.hasEnded wraps then some { s with receiver := false } else none

end ClientSession

/-! ### The object -/

/-- A `VllmRdmaClient`, and what it has left behind. -/
structure VllmRdmaClient where
  /-- `sender` and `completion_reqs`: both are of the last `connect`. Nothing but its worker can
  reach an earlier session. -/
  sessions : Sessions ClientSession
  /-- What `error!` has logged. -/
  logged : List (String × TrySendError)

/-- How `connect` goes. -/
inductive Connecting
  /-- The address cannot be parsed. -/
  | badAddress
  /-- `client_init` or `rdma::connect` returns an error. -/
  | failed
  /-- `rdma::connect` returns what the worker is to own. -/
  | connected (session : Session)

namespace VllmRdmaClient

variable (c : VllmRdmaClient)

/-- `VllmRdmaClient::new`. -/
def new : VllmRdmaClient := ⟨.none, []⟩

/-- `sender` and `completion_reqs` are replaced. -/
def replace (next : Option ClientSession) : VllmRdmaClient :=
  { c with sessions := c.sessions.replace next }

/-- `VllmRdmaClient::connect`, the worker's loop unrolled `n` times. Where it panics, it has
replaced what it has got to. -/
def connect (n : ℕ) : Connecting → VllmRdmaClient
  | .badAddress => c
  | .failed => c.replace (some (.opened none))
  | .connected session =>
    c.replace (some (.opened (some ⟨session, ⟨.init, Client.worker session n⟩⟩)))

/-- The methods differ in the command and in what they log. -/
def tell (what : String) (cmd : Command) : VllmRdmaClient where
  sessions := c.sessions.modify fun s => (s.tell cmd).1
  logged := c.logged ++
    ((c.sessions.current.bind fun s => (s.tell cmd).2).map fun e => (what, e)).toList

/-- `VllmRdmaClient::send`. -/
def send (localTensorBlock remoteTensorBlock : TensorBlock) : VllmRdmaClient :=
  c.tell "send data msg error" (.send localTensorBlock remoteTensorBlock)

/-- `VllmRdmaClient::recv`. -/
def recv (localTensorBlock remoteTensorBlock : TensorBlock) : VllmRdmaClient :=
  c.tell "send data msg error" (.recv localTensorBlock remoteTensorBlock)

/-- `VllmRdmaClient::complete`. -/
def complete (reqId : ReqId) : VllmRdmaClient :=
  c.tell "send complete msg error" (.complete reqId)

/-- `VllmRdmaClient::shutdown`. -/
def shutdown : VllmRdmaClient := c.tell "shutdown error" .disconnect

/-- `VllmRdmaClient::is_complete`. -/
def isComplete (reqId : ReqId) : Bool := c.sessions.current.any fun s => s.isComplete reqId

/-- What a call does. -/
def call : Connected.Call → VllmRdmaClient
  | .send loc rem => c.send loc rem
  | .recv loc rem => c.recv loc rem
  | .complete reqId => c.complete reqId
  | .shutdown => c.shutdown

/-- Who moves. A worker is that of the current session or of an earlier one. -/
inductive Label
  /-- `connect` is called. -/
  | connect (how : Connecting)
  /-- Another method is called. -/
  | call (m : Connected.Call)
  /-- The object is dropped, and `new` makes another. -/
  | drop
  /-- A worker performs its next operation. -/
  | work (which : Option ℕ) (choice : WorkerView.Choice)
  /-- What a worker owned is dropped. -/
  | dropReceiver (which : Option ℕ)

/-- The steps. The sender of an earlier session has been dropped. -/
def step (wraps : Bool) (n : ℕ) (c : VllmRdmaClient) : Label → Option VllmRdmaClient
  | .connect how => some (c.connect n how)
  | .call m => some (c.call m)
  | .drop => some (c.replace none)
  | .work which choice =>
    (c.sessions.update (fun dropped s => s.work wraps dropped choice) which).map
      fun sessions => { c with sessions := sessions }
  | .dropReceiver which =>
    (c.sessions.update (fun _ s => s.dropReceiver wraps) which).map
      fun sessions => { c with sessions := sessions }

end VllmRdmaClient

/-! ### What every step keeps -/

/-- The lock of the table, as the worker has it. -/
def Guard.holds : Guard → Bool
  | .none => false
  | .locked _ | .stored => true

variable {s s' : ClientSession} {w : ClientWorker} {wraps dropped : Bool} {n : ℕ} {cmd : Command}
  {reqId : ReqId}

/-- What the worker has done and what the channel and the table say agree. -/
structure Tallies (dropped : Bool) (s : ClientSession) (v : WorkerView) : Prop where
  /-- No command is lost, made up or put before another. -/
  conserved : v.taken ++ s.queue = s.accepted
  /-- The worker finds the channel at its end when it is. -/
  drained : v.drained = true → dropped = true ∧ s.queue = []
  /-- The lock is the worker's. -/
  locked : s.locked = v.guard.holds
  /-- The table is what has been recorded. -/
  reqs : s.reqs = (CompletionReqs.new 1024).recordAll v.recorded
  /-- And that is what the worker has seen under the lock. -/
  seen : ∀ reqs, v.guard = .locked reqs → reqs = s.reqs

/-- **One operation** keeps the tallies. -/
theorem Tallies.perform {session : Session} {v v' : WorkerView} {op : Op} {r : op.Ans}
    {choice : WorkerView.Choice} (h : Tallies dropped s v) (hrule : WorkerRule session op v)
    (hop : WorkerView.handler op v choice = some (r, v'))
    (hs : s.perform wraps dropped op choice = some s') : Tallies dropped s' v' := by
  cases op with
  | recvCmd =>
    obtain ⟨-, hdrained, -⟩ := hrule
    cases choice <;> cases hop
    cases r with
    | some c =>
      simp only [ClientSession.perform] at hs
      split at hs
      next d ds hqueue =>
        obtain ⟨rfl, hsame⟩ := Option.ite_none_right_eq_some.mp hs
        cases hsame
        refine { h with conserved := ?_, drained := fun hd => ?_ }
        · rw [← h.conserved, hqueue]
          exact List.append_assoc _ _ _
        · exact nomatch hdrained.symm.trans hd
      · cases hs
    | none =>
      obtain ⟨hend, hs⟩ := Option.ite_none_right_eq_some.mp hs
      cases hs
      obtain ⟨hqueue, hdropped⟩ := Bool.and_eq_true_iff.mp hend
      exact { h with drained := fun _ => ⟨hdropped, List.isEmpty_iff.mp hqueue⟩ }
  | lockReqs =>
    cases choice <;> cases hop
    obtain ⟨-, hs⟩ := Option.ite_none_left_eq_some.mp hs
    obtain ⟨rfl, hsame⟩ := Option.ite_none_right_eq_some.mp hs
    cases hsame
    refine { h with locked := rfl, seen := fun reqs hreqs => ?_ }
    cases hreqs
    rfl
  | putReqs reqs =>
    obtain ⟨-, seen, reqId, hguard, hdue, rfl⟩ := hrule
    cases choice <;> cases hop
    cases hs
    refine { h with locked := ?_, reqs := ?_, seen := nofun }
    · rw [h.locked, hguard]
      rfl
    · rw [hdue, h.seen seen hguard, h.reqs]
      exact (CompletionReqs.recordAll_concat _ _ _).symm
  | unlockReqs =>
    cases choice <;> cases hop
    cases hs
    exact { h with locked := rfl, seen := nofun }
  | ibvPostSend wr =>
    cases choice <;> cases hop
    cases hs
    exact { h with }
  | overflow =>
    cases choice <;> cases hop
    obtain ⟨-, hs⟩ := Option.ite_none_right_eq_some.mp hs
    cases hs
    exact h
  | ibvPollCq cq =>
    cases cq <;> cases choice <;> cases hop
    cases hs
    exact h
  | writePage buf bytes | observe o | rdmaDisconnect =>
    cases choice <;> cases hop
    cases hs
    exact h
  | _ => cases hop

/-- How a session is kept. -/
structure Sound (wraps dropped : Bool) (s : ClientSession) : Prop where
  /-- The worker follows its rule from where it is. -/
  follows : ∀ w, s.worker = some w → WorkerView.handler.Always (WorkerRule w.session)
    (WorkerView.Turn w.session) w.thread.prog w.thread.world
  /-- What it has done agrees with the rest. -/
  tallies : Tallies dropped s s.view
  /-- What is accepted has been called for, in this order. -/
  sublist : s.accepted.Sublist s.called
  /-- Nothing is refused as long as there is a worker and room. -/
  roomy : s.called.length ≤ channelCapacity → s.accepted ≠ s.called → s.hasEnded wraps = true
  /-- The worker's end of the channel stays with the worker. -/
  receiver : s.receiver = false → s.hasEnded wraps = true

/-- **Everything an operation of the worker can do.** -/
theorem ClientSession.work_eq_some {choice : WorkerView.Choice}
    (hs : s.work wraps dropped choice = some s') :
    ∃ w op k r v s₁, s.worker = some w ∧ w.thread.prog = .vis op k ∧
      WorkerView.handler op w.thread.world choice = some (r, v) ∧
      s.perform wraps dropped op choice = some s₁ ∧
      s' = { s₁ with worker := some { w with thread := ⟨v, k r⟩ } } := by
  obtain ⟨w, hw, hs⟩ := Option.bind_eq_some_iff.mp hs
  split at hs
  · cases hs
  next op k hprog =>
    obtain ⟨⟨r, v⟩, hr, hs⟩ := Option.bind_eq_some_iff.mp hs
    obtain ⟨s₁, hs₁, rfl⟩ := Option.map_eq_some_iff.mp hs
    exact ⟨w, op, k, r, v, s₁, hw, hprog, hr, hs₁, rfl⟩

/-- What an operation does to the session, it does to the queue, the table and the lock. -/
theorem ClientSession.frame_perform {op : Op} {choice : WorkerView.Choice}
    (hs : s.perform wraps dropped op choice = some s') :
    s'.called = s.called ∧ s'.accepted = s.accepted ∧ s'.receiver = s.receiver := by
  unfold ClientSession.perform at hs
  split at hs
  · split at hs
    · obtain ⟨-, hs⟩ := Option.ite_none_right_eq_some.mp hs
      cases hs
      exact ⟨rfl, rfl, rfl⟩
    · cases hs
  · obtain ⟨-, hs⟩ := Option.ite_none_right_eq_some.mp hs
    cases hs
    exact ⟨rfl, rfl, rfl⟩
  · obtain ⟨-, hs⟩ := Option.ite_none_left_eq_some.mp hs
    obtain ⟨-, hs⟩ := Option.ite_none_right_eq_some.mp hs
    cases hs
    exact ⟨rfl, rfl, rfl⟩
  · cases hs
    exact ⟨rfl, rfl, rfl⟩
  · cases hs
    exact ⟨rfl, rfl, rfl⟩
  · obtain ⟨-, hs⟩ := Option.ite_none_right_eq_some.mp hs
    cases hs
    exact ⟨rfl, rfl, rfl⟩
  · cases hs
    exact ⟨rfl, rfl, rfl⟩

/-- A worker that has ended does nothing any more. -/
theorem ClientSession.hasEnded_of_work {choice : WorkerView.Choice}
    (hs : s.work wraps dropped choice = some s') : s.hasEnded wraps = false := by
  obtain ⟨w, op, k, r, v, s₁, hw, hprog, hr, hs₁, -⟩ := work_eq_some hs
  rw [hasEnded, hw, Option.all_some, hprog]
  cases op with
  | panic msg => cases hr
  | overflow =>
    obtain ⟨hwraps, -⟩ := Option.ite_none_right_eq_some.mp hs₁
    simp [Client.hasEnded, hwraps]
  | _ => rfl

namespace Sound

/-- A session begins in order. -/
theorem opened_none : Sound wraps false (.opened none) where
  follows := nofun
  tallies := ⟨rfl, nofun, rfl, rfl, nofun⟩
  sublist := .refl _
  roomy _ hne := absurd rfl hne
  receiver _ := rfl

theorem opened_some (session : Session) (n : ℕ) :
    Sound wraps false (.opened (some ⟨session, ⟨.init, Client.worker session n⟩⟩)) where
  follows w hw := by
    cases hw
    exact WorkerView.always_worker session n
  tallies := ⟨rfl, nofun, rfl, rfl, nofun⟩
  sublist := .refl _
  roomy _ hne := absurd rfl hne
  receiver := nofun

/-- The sender is dropped. -/
theorem drop (h : Sound wraps dropped s) : Sound wraps true s :=
  { h with tallies := { h.tallies with drained := fun hd => ⟨rfl, (h.tallies.drained hd).2⟩ } }

theorem dropReceiver (h : Sound wraps dropped s) (hs : s.dropReceiver wraps = some s') :
    Sound wraps dropped s' := by
  obtain ⟨hended, hs⟩ := Option.ite_none_right_eq_some.mp hs
  cases hs
  exact { h with tallies := { h.tallies with }, receiver := fun _ => hended }

/-- The channel holds no more than has been called for. -/
theorem length_queue (h : Sound wraps dropped s) : s.queue.length ≤ s.called.length := by
  have hconserved := congrArg List.length h.tallies.conserved
  have hsublist := h.sublist.length_le
  rw [List.length_append] at hconserved
  omega

/-- A call is accepted. -/
theorem accept (h : Sound wraps false s) (cmd : Command) :
    Sound wraps false { s with
      called := s.called ++ [cmd]
      queue := s.queue ++ [cmd]
      accepted := s.accepted ++ [cmd] } := by
  refine { h with
    tallies := { h.tallies with conserved := ?_, drained := ?_ }, sublist := ?_, roomy := ?_ }
  · show s.view.taken ++ (s.queue ++ [cmd]) = s.accepted ++ [cmd]
    rw [← h.tallies.conserved, List.append_assoc]
  · exact fun hd => nomatch (h.tallies.drained hd).1
  · exact h.sublist.append (.refl _)
  · intro hroom hne
    rw [List.length_append] at hroom
    exact h.roomy (Nat.le_of_succ_le hroom) fun heq => hne (congrArg (· ++ [cmd]) heq)

/-- A call is refused. -/
theorem refuse (h : Sound wraps false s) (cmd : Command)
    (hs : s.receiver = false ∨ channelCapacity ≤ s.queue.length) :
    Sound wraps false { s with called := s.called ++ [cmd] } := by
  refine { h with tallies := { h.tallies with }, sublist := ?_, roomy := ?_ }
  · exact h.sublist.trans (List.sublist_append_left _ _)
  · intro hroom _
    rw [List.length_append] at hroom
    have hqueue := h.length_queue
    refine h.receiver (hs.resolve_right ?_)
    exact Nat.not_le_of_lt (Nat.lt_of_le_of_lt hqueue hroom)

/-- **A call** puts its command into the channel, or is refused for one of two reasons. -/
theorem tell (h : Sound wraps false s) (cmd : Command) : Sound wraps false (s.tell cmd).1 := by
  simp only [ClientSession.tell, ClientSession.trySend]
  split_ifs with hreceiver hroom
  · exact h.accept cmd
  · exact h.refuse cmd (.inr (Nat.le_of_not_lt hroom))
  · exact h.refuse cmd (.inl (Bool.eq_false_iff.mpr hreceiver))

/-- **One operation** of the worker. -/
theorem work {choice : WorkerView.Choice} (h : Sound wraps dropped s)
    (hs : s.work wraps dropped choice = some s') : Sound wraps dropped s' := by
  have hgoes : ¬ s.hasEnded wraps = true :=
    Bool.eq_false_iff.mp (ClientSession.hasEnded_of_work hs)
  obtain ⟨w, op, k, r, v, s₁, hw, hprog, hr, hs₁, rfl⟩ := ClientSession.work_eq_some hs
  obtain ⟨hcalled, haccepted, hreceiver⟩ := ClientSession.frame_perform hs₁
  have hfollows := h.follows w hw
  rw [hprog] at hfollows
  have htallies : Tallies dropped s w.thread.world := by
    have := h.tallies
    rwa [ClientSession.view, hw] at this
  refine ⟨?_, { htallies.perform hfollows.head hr hs₁ with }, ?_, ?_, ?_⟩
  · intro w' hw'
    cases hw'
    exact hfollows.2 choice r v hr
  · show s₁.accepted.Sublist s₁.called
    rw [hcalled, haccepted]
    exact h.sublist
  · intro hroom hne
    rw [hcalled] at hroom hne
    rw [haccepted] at hne
    exact absurd (h.roomy hroom hne) hgoes
  · intro hgone
    exact absurd (h.receiver (hreceiver.symm.trans hgone)) hgoes

end Sound

namespace VllmRdmaClient

variable {c c' : VllmRdmaClient}

theorem sound_replace (h : c.sessions.All (Sound wraps)) {next : Option ClientSession}
    (hnext : ∀ s, next = some s → Sound wraps false s) :
    (c.replace next).sessions.All (Sound wraps) := h.replace (fun _ => Sound.drop) hnext

theorem sound_step {l : Label} (h : c.sessions.All (Sound wraps))
    (hs : c.step wraps n l = some c') : c'.sessions.All (Sound wraps) := by
  cases l with
  | connect how =>
    cases hs
    cases how with
    | badAddress => exact h
    | failed =>
      refine sound_replace h ?_
      rintro _ ⟨⟩
      exact .opened_none
    | connected session =>
      refine sound_replace h ?_
      rintro _ ⟨⟩
      exact .opened_some session n
  | call m =>
    cases hs
    have htell (what : String) (cmd : Command) : (c.tell what cmd).sessions.All (Sound wraps) :=
      h.modify fun _ hs => hs.tell cmd
    cases m with
    | send loc rem => exact htell _ _
    | recv loc rem => exact htell _ _
    | complete reqId => exact htell _ _
    | shutdown => exact htell _ _
  | drop =>
    cases hs
    exact sound_replace h nofun
  | work which choice =>
    obtain ⟨sessions, hsessions, rfl⟩ := Option.map_eq_some_iff.mp hs
    exact h.update (fun _ _ _ => Sound.work) hsessions
  | dropReceiver which =>
    obtain ⟨sessions, hsessions, rfl⟩ := Option.map_eq_some_iff.mp hs
    exact h.update (fun _ _ _ => Sound.dropReceiver) hsessions

/-- **Every session is sound**, in every run. -/
theorem sound_of_reach (hr : Reach (step wraps n) anyStep new c) :
    c.sessions.All (Sound wraps) :=
  hr.invariant (P := fun c => c.sessions.All (Sound wraps)) .none
    fun _ _ _ h _ hs => sound_step h hs

end VllmRdmaClient

/-! ### What it comes to -/

/-- A session is in order, whatever the network does. -/
structure Orderly (wraps dropped : Bool) (s : ClientSession) : Prop where
  /-- The worker takes what the channel has accepted, and the rest is still there. -/
  conserved : s.view.taken ++ s.queue = s.accepted
  /-- What is accepted has been called for, in this order. -/
  sublist : s.accepted.Sublist s.called
  /-- A call is refused for one of two reasons: there is no worker any more, or the channel is full
  of commands that have not been taken. -/
  refused : ∀ cmd e, (s.tell cmd).2 = some e → (e = .closed cmd ∧ s.hasEnded wraps = true) ∨
    (e = .full cmd ∧ channelCapacity ≤ s.queue.length)
  /-- As long as no more has been called for than the channel holds, only the first can have been
  the reason. -/
  roomy : s.called.length ≤ channelCapacity → s.accepted ≠ s.called → s.hasEnded wraps = true
  /-- What the worker has handed to `ibv_post_send` and recorded is told by the commands. -/
  inTurn : ∀ w, s.worker = some w → InTurn w.session w.thread.world
  /-- It leaves its loop when it is told to, or at the end of a channel whose sender is dropped. -/
  returns : ∀ w, s.worker = some w → w.thread.prog = .ret (some ()) →
    s.view.taken.getLast? = some .disconnect ∨ (dropped = true ∧ s.queue = [])
  /-- A worker that has ended does not hold the lock, even if it has panicked. -/
  free : s.hasEnded wraps = true → s.locked = false
  /-- What is reported as complete is told by what has been recorded. -/
  reported : ∀ reqId, s.isComplete reqId = true ↔
    s.locked = false ∧ Survives 1023 s.view.recorded reqId

namespace Sound

theorem view_of_worker (hw : s.worker = some w) : s.view = w.thread.world := by
  rw [ClientSession.view, hw]
  rfl

/-- Wherever the worker is, what it has done is told by the commands. -/
theorem inTurn (h : Sound wraps dropped s) (hw : s.worker = some w) :
    InTurn w.session w.thread.world := by
  have hfollows := h.follows w hw
  obtain ⟨session, v, prog⟩ := w
  cases prog with
  | vis op k => exact hfollows.head.1
  | ret o =>
    cases o with
    | none => exact Idles.inTurn hfollows
    | some _ => exact Ends.inTurn hfollows

/-- A worker that has ended does not hold the lock. -/
theorem guard_of_hasEnded {session : Session} {v : WorkerView} {p : Task (Option Unit)}
    (h : WorkerView.handler.Always (WorkerRule session) (WorkerView.Turn session) p v)
    (hended : Client.hasEnded wraps p = true) : v.guard = .none := by
  unfold Client.hasEnded at hended
  split at hended
  next o =>
    obtain ⟨_, rfl⟩ := Option.isSome_iff_exists.mp hended
    exact Ends.guard h
  next msg k => exact h.head.2
  next k => exact h.head.2
  · cases hended

theorem free (h : Sound wraps dropped s) (hended : s.hasEnded wraps = true) :
    s.locked = false := by
  rw [h.tallies.locked]
  cases hw : s.worker with
  | none =>
    rw [ClientSession.view, hw]
    rfl
  | some w =>
    rw [ClientSession.hasEnded, hw, Option.all_some] at hended
    rw [view_of_worker hw, guard_of_hasEnded (h.follows w hw) hended]
    rfl

/-- **Why a call is refused.** -/
theorem refused (h : Sound wraps dropped s) (cmd : Command) (e : TrySendError)
    (he : (s.tell cmd).2 = some e) : (e = .closed cmd ∧ s.hasEnded wraps = true) ∨
      (e = .full cmd ∧ channelCapacity ≤ s.queue.length) := by
  simp only [ClientSession.tell, ClientSession.trySend] at he
  split_ifs at he with hreceiver hroom
  · cases he
    exact .inr ⟨rfl, Nat.le_of_not_lt hroom⟩
  · cases he
    exact .inl ⟨rfl, h.receiver (Bool.eq_false_iff.mpr hreceiver)⟩

theorem orderly (h : Sound wraps dropped s) : Orderly wraps dropped s where
  conserved := h.tallies.conserved
  sublist := h.sublist
  refused := h.refused
  roomy := h.roomy
  inTurn _ := h.inTurn
  returns w hw hprog := by
    have hfollows := h.follows w hw
    rw [hprog] at hfollows
    have hends : Ends w.session w.thread.world := hfollows
    rw [← view_of_worker hw] at hends
    exact hends.why.imp_right h.tallies.drained
  free := h.free
  reported reqId := by
    rw [ClientSession.isComplete, h.tallies.reqs, Bool.and_eq_true, Bool.not_eq_true',
      CompletionReqs.isReqComplete_recordAll (by decide)]

end Sound

namespace VllmRdmaClient

variable {c : VllmRdmaClient}

/-- **Every session is in order**, whatever the network does: the one that calls go to, and those
that earlier calls of `connect` have made. -/
theorem orderly_of_reach (hr : Reach (step wraps n) anyStep new c) :
    c.sessions.All (Orderly wraps) := (sound_of_reach hr).mono fun _ _ => Sound.orderly

end VllmRdmaClient

/-- What is recorded has been taken, and all that was taken before it has been handed over. -/
theorem InTurn.handed_of_mem {session : Session} {v : WorkerView} (h : InTurn session v)
    (hmem : reqId ∈ v.recorded) :
    ∃ cs, cs ++ [.complete reqId] <+: v.taken ∧ .disconnect ∉ cs ∧
      cs.flatMap (Client.requests session) <+: v.handed := by
  obtain ⟨cmd, hcmd, hrecords⟩ := List.mem_flatMap.mp (h.records.subset hmem)
  obtain rfl : cmd = .complete reqId := by
    cases cmd with
    | complete id =>
      rw [Client.records] at hrecords
      split at hrecords
      · rw [List.mem_singleton.mp hrecords]
      · cases hrecords
    | _ => cases hrecords
  obtain ⟨cs, ds, htaken⟩ := List.append_of_mem hcmd
  have hbefore : cs <+: v.taken.dropLast := by
    rw [htaken, List.dropLast_append_of_ne_nil (List.cons_ne_nil _ _)]
    exact List.prefix_append _ _
  refine ⟨cs, ⟨ds, by rw [htaken]; simp⟩, fun hgoes => h.goes (hbefore.subset hgoes), ?_⟩
  exact (hbefore.flatMap _).trans h.handed

namespace VllmRdmaClient

/-- **A reported request** has been called for since the last `connect`, and the work requests of
the calls before it have been handed to `ibv_post_send`, whatever that has returned. -/
theorem handed_of_isComplete (hr : Reach (step wraps n) anyStep new c)
    (hreported : c.isComplete reqId = true) :
    ∃ s w cs, c.sessions.current = some s ∧ s.worker = some w ∧
      cs ++ [.complete reqId] <+: s.accepted ∧ .disconnect ∉ cs ∧
      cs.flatMap (Client.requests w.session) <+: w.thread.world.handed := by
  obtain ⟨s, hs, hreported⟩ := (Option.any_eq_true _ _).mp hreported
  have horderly := ((sound_of_reach hr).current s hs).orderly
  obtain ⟨-, i, hi, -⟩ := (horderly.reported reqId).mp hreported
  have hmem : reqId ∈ s.view.recorded := List.mem_of_getElem? hi
  cases hw : s.worker with
  | none =>
    rw [ClientSession.view, hw] at hmem
    cases hmem
  | some w =>
    have hconserved := horderly.conserved
    rw [Sound.view_of_worker hw] at hmem hconserved
    obtain ⟨cs, htaken, hgoes, hhanded⟩ := (horderly.inTurn w hw).handed_of_mem hmem
    refine ⟨s, w, cs, hs, hw, htaken.trans ?_, hgoes, hhanded⟩
    exact hconserved ▸ List.prefix_append _ _

/-- The work request of a push is refused, and the worker logs the error. -/
def refusing : List WorkerView.Choice :=
  [.command (some (.send ⟨65536, 16, 8⟩ ⟨262144, 0, 0⟩)), .ret (.ret (-1) 12), .go]

/-- A request is completed: the worker records it, announces it, and goes back for the next
command. -/
def completing : List WorkerView.Choice :=
  [.command (some (.complete [7])), .go, .go, .table (.new 1024), .go, .ret (.ret 0 0),
    .polled (.entry ⟨0, 0, 0⟩), .go, .go]

/-- A push that is refused, and the request behind it is reported all the same. -/
theorem handed_of_isComplete_seven : ∃ c,
    Reach (step false 2) anyStep new c ∧ c.isComplete [7] = true ∧
    ∃ s w cs, c.sessions.current = some s ∧ s.worker = some w ∧
      cs ++ [.complete [7]] <+: s.accepted ∧ .disconnect ∉ cs ∧
      cs.flatMap (Client.requests w.session) <+: w.thread.world.handed := by
  obtain ⟨c, hr, hreported⟩ : ∃ c, Reach (step false 2) anyStep new c ∧
      c.isComplete [7] = true :=
    exists_reach_of_execWithin ([.connect (.connected twoBuffers.session),
      .call (.send ⟨65536, 16, 8⟩ ⟨262144, 0, 0⟩), .call (.complete [7])] ++
        (refusing ++ completing).map (.work none)) ⟨_, rfl, rfl⟩
  exact ⟨c, hr, hreported, handed_of_isComplete hr hreported⟩

/-- Connected again, to a server that is not there, the object reports nothing any more, and the
first worker finds its channel at the end. -/
theorem orderly_of_reach_reconnected : ∃ c,
    Reach (step false 2) anyStep new c ∧ c.isComplete [7] = false ∧
    c.sessions.former.length = 1 ∧ c.sessions.All (Orderly false) := by
  obtain ⟨c, hr, hreported, hformer⟩ : ∃ c, Reach (step false 2) anyStep new c ∧
      c.isComplete [7] = false ∧ c.sessions.former.length = 1 :=
    exists_reach_of_execWithin ([.connect (.connected twoBuffers.session),
      .call (.complete [7])] ++ completing.map (.work none) ++
        [.connect .failed, .call .shutdown, .work (some 0) (.command none)]) ⟨_, rfl, rfl, rfl⟩
  exact ⟨c, hr, hreported, hformer, orderly_of_reach hr⟩

end VllmRdmaClient

end RdmaTransport
