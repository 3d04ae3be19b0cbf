import RdmaTransport.Internal.Feed
import RdmaTransport.Vllm.WorkerRefines

/-!
# Calls while the worker runs

A method of a connected `VllmRdmaClient` only puts a command into the channel, with `try_send`, and
the worker takes them out at its own pace. Calls and the worker's operations come in any order. The
channel has room for 2³⁰ commands; a call is refused, and its error logged, when there is no room or
when the worker's end has been dropped. Dropping the object, or connecting it again, closes the
channel: the worker drains what is queued and ends.

When a command arrives makes no difference to the worker, except that it waits for it. So what the
worker does with the calls is what it would do with all of them queued from the start, and that is
sequential copying.

## Main definitions

* `Connected` — the object, its channel and the worker
* `Connected.send`, `recv`, `complete`, `shutdown` — the methods
* `Connected.step` — a call, an operation of the worker, or one end of the channel dropped

## Main results

* `reach_worker` — the worker is where it would be had everything been queued from the start
* `inOrder_of_reach` — the calls are carried out, in their order, up to the first `shutdown`
-/

namespace RdmaTransport

open Interaction

/-- A worker has left its loop, or panicked. A build with overflow checks panics at a sum that does
not fit. -/
def Client.hasEnded (wraps : Bool) : Task (Option Unit) → Bool
  | .ret o => o.isSome
  | .vis (.panic _) _ => true
  | .vis .overflow _ => !wraps
  | .vis _ _ => false

namespace Fabric

/-! ### The channel -/

/-- `mpsc::channel(1024 * 1024 * 1024)`: how many commands fit. -/
def channelCapacity : ℕ := 1024 * 1024 * 1024

/-- Why `Sender::try_send` refuses a command. -/
inductive TrySendError
  /-- There is no room. -/
  | full (c : Command)
  /-- The receiver has been dropped. -/
  | closed (c : Command)

/-- A command is appended to an open channel. -/
def World.push (c : Command) (w : World) : World :=
  if w.closed then w else { w with commands := w.commands ++ [c] }

/-- The last sender of the channel is dropped. -/
def World.close (w : World) : World := { w with closed := true }

/-- A `VllmRdmaClient` after `connect`, and the worker. -/
structure Connected where
  /-- The worker: its environment, with the channel, and what is left of its program. -/
  worker : Config iface World (Option Unit)
  /-- Whether the worker's end of the channel is there. -/
  receiver : Bool
  /-- The commands of all calls, in their order. -/
  called : List Command
  /-- Those that the channel has taken. -/
  accepted : List Command
  /-- What `error!` has logged. -/
  logged : List (String × TrySendError)

namespace Connected

variable (s : Connected)

/-- `Sender::try_send`. -/
def trySend (c : Command) : Except TrySendError Connected :=
  if s.receiver then
    if s.worker.world.commands.length < channelCapacity then
      .ok { s with
        worker := s.worker.change (World.push c)
        accepted := s.accepted ++ [c] }
    else .error (.full c)
  else .error (.closed c)

/-- The methods differ in the command and in what they log. -/
def tell (what : String) (c : Command) : Connected :=
  let s := { s with called := s.called ++ [c] }
  match s.trySend c with
  | .ok s' => s'
  | .error e => { s with logged := s.logged ++ [(what, e)] }

/-- `VllmRdmaClient::send`. -/
def send (localTensorBlock remoteTensorBlock : TensorBlock) : Connected :=
  s.tell "send data msg error" (.send localTensorBlock remoteTensorBlock)

/-- `VllmRdmaClient::recv`. -/
def recv (localTensorBlock remoteTensorBlock : TensorBlock) : Connected :=
  s.tell "send data msg error" (.recv localTensorBlock remoteTensorBlock)

/-- `VllmRdmaClient::complete`. -/
def complete (reqId : ReqId) : Connected := s.tell "send complete msg error" (.complete reqId)

/-- `VllmRdmaClient::shutdown`. -/
def shutdown : Connected := s.tell "shutdown error" .disconnect

/-- A call of one of the methods. -/
inductive Call
  /-- `send`. -/
  | send (localTensorBlock remoteTensorBlock : TensorBlock)
  /-- `recv`. -/
  | recv (localTensorBlock remoteTensorBlock : TensorBlock)
  /-- `complete`. -/
  | complete (reqId : ReqId)
  /-- `shutdown`. -/
  | shutdown

/-- What a call does. -/
def call : Call → Connected
  | .send loc rem => s.send loc rem
  | .recv loc rem => s.recv loc rem
  | .complete reqId => s.complete reqId
  | .shutdown => s.shutdown

/-- Every call is one command. -/
theorem call_eq_tell (m : Call) : ∃ what c, s.call m = s.tell what c := by
  cases m with
  | send loc rem => exact ⟨_, _, rfl⟩
  | recv loc rem => exact ⟨_, _, rfl⟩
  | complete reqId => exact ⟨_, _, rfl⟩
  | shutdown => exact ⟨_, _, rfl⟩

/-- The worker has left its loop, or panicked, and drops what it owns. -/
def workerEnded (wraps : Bool) : Bool := Client.hasEnded wraps s.worker.prog

/-- Who moves. -/
inductive Label
  /-- A method is called. -/
  | call (m : Call)
  /-- The worker performs its next operation. -/
  | work
  /-- The object is dropped, or connects again. -/
  | dropSender
  /-- What the worker owned is dropped. -/
  | dropReceiver

/-- The steps. There are no calls any more once the object has given up the channel. -/
def step (st : Setup) (wraps : Bool) (s : Connected) : Label → Option Connected
  | .call m => if s.worker.world.closed then none else some (s.call m)
  | .work => (Handler.step (.det (st.answer wraps)) s.worker ()).map
      fun worker => { s with worker := worker }
  | .dropSender => if s.worker.world.closed then none
      else some { s with worker := s.worker.change World.close }
  | .dropReceiver => if s.workerEnded wraps then some { s with receiver := false } else none

/-- When `connect` has returned, the worker's loop unrolled `n` times. -/
def start (st : Setup) (i : Start) (n : ℕ) : Connected :=
  ⟨⟨{ i with closed := false }.world [], Client.worker st.session n⟩, true, [], [], []⟩

end Connected

/-! ### Commands that arrive -/

variable {st : Setup} {wraps : Bool} {w w' : World} {op : Op} {r : op.Ans} {cs : List Command}
  {b : Bool}

/-- The environment with another channel. -/
def World.rechannel (w : World) (cs : List Command) (b : Bool) : World :=
  { w with commands := cs, closed := b }

/-- One request of `Setup.drain`. -/
def Setup.execute (st : Setup) (w : World) (wr : IbvSendWr) : World :=
  { w with
    net := (st.perform w.taken w.net wr).2
    cq := w.cq ++ [⟨(st.perform w.taken w.net wr).1, 0, 0⟩] }

/-- Executing requests does not look at the channel. -/
theorem drain_rechannel : st.drain (w.rechannel cs b) = (st.drain w).rechannel cs b := by
  show w.sq.foldl st.execute (World.rechannel { w with sq := [] } cs b) = _
  exact List.foldl_hom (fun w : World => w.rechannel cs b) fun _ _ => rfl

/-- No operation but `rx.recv()` looks at the channel. -/
theorem answer_rechannel (hop : op ≠ .recvCmd) (w : World) (cs : List Command) (b : Bool) :
    st.answer wraps op (w.rechannel cs b) =
      (st.answer wraps op w).map fun q => (q.1, q.2.rechannel cs b) := by
  cases op with
  | recvCmd => exact absurd rfl hop
  | ibvPostSend wr =>
    let posted : World := { w with sq := w.sq ++ [wr], posts := w.posts + 1 }
    change some (CRet.ret 0 0, if w.early w.posts then st.drain (posted.rechannel cs b)
      else posted.rechannel cs b) = _
    rw [drain_rechannel, ← apply_ite fun w : World => w.rechannel cs b]
    rfl
  | ibvPollCq cq =>
    cases cq with
    | recv => rfl
    | send =>
      have hcq : ((st.drain w).rechannel cs b).cq = (st.drain w).cq := rfl
      simp only [Setup.answer, drain_rechannel, hcq]
      cases (st.drain w).cq <;> rfl
  | overflow => cases wraps <;> rfl
  | _ => rfl

/-- It leaves the channel as it was. -/
theorem channel_of_answer (hop : op ≠ .recvCmd) (h : st.answer wraps op w = some (r, w')) :
    w'.commands = w.commands ∧ w'.closed = w.closed := by
  have hsame : st.answer wraps op w = _ := answer_rechannel hop w w.commands w.closed
  rw [h, Option.map_some, Option.some_inj, Prod.mk.injEq] at hsame
  rw [hsame.2]
  exact ⟨rfl, rfl⟩

theorem answer_of_rechannel (hop : op ≠ .recvCmd) (h : st.answer wraps op w = some (r, w'))
    (cs : List Command) (b : Bool) :
    st.answer wraps op (w.rechannel cs b) = some (r, w'.rechannel cs b) := by
  rw [answer_rechannel hop, h, Option.map_some]

theorem push_eq_rechannel (c : Command) (w : World) :
    w.push c = w.rechannel (if w.closed then w.commands else w.commands ++ [c]) w.closed := by
  unfold World.push
  split <;> rfl

/-- **A command may arrive at any time.** -/
theorem commutes_push (st : Setup) (wraps : Bool) (c : Command) :
    Commutes (S := iface) (st.answer wraps) (World.push c) := by
  intro op w r w' h
  by_cases hop : op = .recvCmd
  · subst hop
    obtain ⟨net, commands, closed, taken, sq, cq, posts, early, reqs⟩ := w
    cases commands with
    | cons d ds => cases h; cases closed <;> rfl
    | nil =>
      cases closed with
      | true => cases h; rfl
      | false => cases h
  · obtain ⟨hcommands, hclosed⟩ := channel_of_answer hop h
    rw [push_eq_rechannel, push_eq_rechannel, hcommands, hclosed]
    exact answer_of_rechannel hop h _ _

/-- **So may the end of the channel.** -/
theorem commutes_close (st : Setup) (wraps : Bool) :
    Commutes (S := iface) (st.answer wraps) World.close := by
  intro op w r w' h
  by_cases hop : op = .recvCmd
  · subst hop
    obtain ⟨net, commands, closed, taken, sq, cq, posts, early, reqs⟩ := w
    cases commands with
    | cons d ds => cases h; rfl
    | nil =>
      cases closed with
      | true => cases h; rfl
      | false => cases h
  · have hclose : w'.close = w'.rechannel w.commands true := by
      rw [← (channel_of_answer hop h).1]
      rfl
    rw [hclose]
    exact answer_of_rechannel hop h _ _

/-- No operation closes the channel. -/
theorem closed_of_answer (h : st.answer wraps op w = some (r, w')) : w'.closed = w.closed := by
  by_cases hop : op = .recvCmd
  · subst hop
    obtain ⟨net, commands, closed, taken, sq, cq, posts, early, reqs⟩ := w
    cases commands with
    | cons d ds => cases h; rfl
    | nil => cases closed <;> cases h; rfl
  · exact (channel_of_answer hop h).2

/-! ### What has happened stays -/

theorem effects_perform (st : Setup) (cmd : ℕ) (net : Net) (wr : IbvSendWr) :
    net.effects <+: (st.perform cmd net wr).2.effects := by
  unfold Setup.perform
  split
  · exact List.prefix_rfl
  split
  · unfold Setup.transfer
    split
    · exact List.prefix_append _ _
    · exact List.prefix_append _ _
    · exact List.prefix_append _ _
    · exact List.prefix_rfl
  · exact List.prefix_rfl
  · exact List.prefix_rfl

theorem effects_drain (st : Setup) (w : World) : w.net.effects <+: (st.drain w).net.effects := by
  have hfold (wrs : List IbvSendWr) (w : World) :
      w.net.effects <+: (wrs.foldl st.execute w).net.effects := by
    induction wrs generalizing w with
    | nil => exact List.prefix_rfl
    | cons wr wrs ih =>
      exact (effects_perform st w.taken w.net wr).trans (ih (st.execute w wr))
  exact hfold w.sq { w with sq := [] }

theorem effects_answer (h : st.answer wraps op w = some (r, w')) :
    w.net.effects <+: w'.net.effects := by
  cases op with
  | ibvPostSend wr =>
    cases h
    split
    · exact effects_drain st { w with sq := w.sq ++ [wr], posts := w.posts + 1 }
    · exact List.prefix_rfl
  | ibvPollCq cq =>
    cases cq with
    | recv => cases h
    | send =>
      simp only [Setup.answer] at h
      split at h
      · cases h
      · cases h
        exact effects_drain st w
  | recvCmd =>
    simp only [Setup.answer] at h
    split at h
    · cases h
      exact List.prefix_rfl
    · split at h <;> cases h
      exact List.prefix_rfl
  | overflow => cases wraps <;> cases h; exact List.prefix_rfl
  | _ => cases h <;> exact List.prefix_rfl

/-- A run only adds to what has happened. -/
theorem effects_interp {α : Type} (st : Setup) (wraps : Bool) (p : Task α) (w : World) :
    w.net.effects <+: (Prog.interp (st.answer wraps) p w).state.net.effects :=
  interp_rel (R := fun w w' : World => w.net.effects <+: w'.net.effects)
    (fun _ => List.prefix_rfl) (fun _ _ _ => List.IsPrefix.trans)
    (fun _ _ _ _ => effects_answer) p w

/-! ### One step -/

namespace Connected

variable {s s' : Connected} {i : Start} {n : ℕ} {c : Command} {what : String}

/-- What a call leaves behind: the command is queued, or it is refused for one of two reasons. -/
theorem tell_cases (s : Connected) (what : String) (c : Command) :
    (s.tell what c).called = s.called ++ [c] ∧ (s.tell what c).receiver = s.receiver ∧
      (((s.tell what c).worker = s.worker.change (World.push c) ∧
          (s.tell what c).accepted = s.accepted ++ [c]) ∨
        ((s.tell what c).worker = s.worker ∧ (s.tell what c).accepted = s.accepted ∧
          (s.receiver = false ∨ channelCapacity ≤ s.worker.world.commands.length))) := by
  obtain ⟨worker, receiver, called, accepted, logged⟩ := s
  cases receiver with
  | false => exact ⟨rfl, rfl, .inr ⟨rfl, rfl, .inl rfl⟩⟩
  | true =>
    by_cases hroom : worker.world.commands.length < channelCapacity
    · simp [tell, trySend, hroom]
    · simp [tell, trySend, hroom, Nat.le_of_not_lt hroom]

/-- The worker has got from its first operation, with `cs` in the channel, to `c`. -/
def Reaches (st : Setup) (wraps : Bool) (i : Start) (n : ℕ) (cs : List Command)
    (c : Config iface World (Option Unit)) : Prop :=
  Reach (Handler.step (.det (st.answer wraps))) anyStep
    ⟨{ i with closed := c.world.closed }.world cs, Client.worker st.session n⟩ c

variable {cs : List Command} {d d' : Config iface World (Option Unit)}

theorem Reaches.push (h : Reaches st wraps i n cs d) (hopen : ¬ d.world.closed = true)
    (c : Command) : Reaches st wraps i n (cs ++ [c]) (d.change (World.push c)) := by
  have hclosed : d.world.closed = false := Bool.eq_false_iff.mpr hopen
  have hsame : (d.change (World.push c)).world.closed = false := by
    rw [Config.change, push_eq_rechannel]
    exact hclosed
  rw [Reaches, hclosed] at h
  rw [Reaches, hsame]
  exact reach_of_commutes (commutes_push st wraps c) h

theorem Reaches.work (h : Reaches st wraps i n cs d)
    (hs : Handler.step (.det (st.answer wraps)) d () = some d') :
    Reaches st wraps i n cs d' := by
  obtain ⟨op, k, r, -, hr, -⟩ := Handler.step_eq_some hs
  have hclosed : d'.world.closed = d.world.closed := closed_of_answer hr
  rw [Reaches, hclosed]
  exact h.next rfl hs

/-- **The worker is where it would be** had everything been queued from the start. -/
theorem reach_worker (hr : Reach (Connected.step st wraps) anyStep (.start st i n) s) :
    Reaches st wraps i n s.accepted s.worker := by
  induction hr with
  | start => exact .start
  | @next s s' l _ _ hs ih =>
    cases l with
    | call m =>
      obtain ⟨hopen, hs⟩ := Option.ite_none_left_eq_some.mp hs
      cases hs
      obtain ⟨what, c, hcall⟩ := s.call_eq_tell m
      rw [hcall]
      obtain ⟨-, -, ⟨hworker, haccepted⟩ | ⟨hworker, haccepted, -⟩⟩ := s.tell_cases what c
      · rw [hworker, haccepted]
        exact ih.push hopen c
      · rw [hworker, haccepted]
        exact ih
    | work =>
      obtain ⟨worker, hworker, rfl⟩ := Option.map_eq_some_iff.mp hs
      exact ih.work hworker
    | dropSender =>
      obtain ⟨hopen, hs⟩ := Option.ite_none_left_eq_some.mp hs
      cases hs
      exact reach_of_commutes (commutes_close st wraps) ih
    | dropReceiver =>
      obtain ⟨hended, hs⟩ := Option.ite_none_right_eq_some.mp hs
      cases hs
      exact ih

end Connected

/-! ### What the channel holds -/

/-- **An open channel.** Valid commands without a disconnect leave the worker waiting for more. -/
theorem stuck_of_open {cs : List Command} {n : ℕ} (hw : w.Idle) (hq : w.net.qpError = false)
    (hcs : w.commands = cs) (hn : cs.length < n) (hopen : w.closed = false)
    (hvalid : ∀ c ∈ cs, st.Valid c) (hgoes : .disconnect ∉ cs) :
    ∃ w', workerRun st wraps n w = .stuck .recvCmd w' := by
  induction cs generalizing w n with
  | nil =>
    obtain ⟨n, rfl⟩ := Nat.exists_eq_add_one_of_ne_zero (Nat.ne_zero_of_lt hn)
    refine ⟨w, ?_⟩
    rw [workerRun_nil hcs, hopen]
    rfl
  | cons c cs ih =>
    obtain ⟨n, rfl⟩ := Nat.exists_eq_add_one_of_ne_zero (Nat.ne_zero_of_lt hn)
    have hc : c ≠ .disconnect := fun h => hgoes (h ▸ List.mem_cons_self)
    obtain ⟨w', hrun, hserves⟩ := serves_arm wraps (w := w.took cs) hw hq
      (hvalid c List.mem_cons_self) hc
    rw [workerRun_cons hcs, hrun]
    exact ih hserves.idle hserves.works hserves.queue.1 (by simpa using hn)
      (hserves.queue.2.1.trans hopen) (fun d hd => hvalid d (List.mem_cons_of_mem c hd))
      fun h => hgoes (List.mem_cons_of_mem c h)

/-- No operation adds to the channel. -/
theorem length_of_answer (h : st.answer wraps op w = some (r, w')) :
    w'.commands.length ≤ w.commands.length := by
  by_cases hop : op = .recvCmd
  · subst hop
    obtain ⟨net, commands, closed, taken, sq, cq, posts, early, reqs⟩ := w
    cases commands with
    | cons d ds => cases h; exact Nat.le_succ _
    | nil => cases closed <;> cases h; exact Nat.le_refl _
  · rw [(channel_of_answer hop h).1]

namespace Connected

variable {s s' : Connected} {i : Start} {n : ℕ} {cs : List Command}
  {d : Config iface World (Option Unit)}

theorem Reaches.length_le (h : Reaches st wraps i n cs d) :
    d.world.commands.length ≤ cs.length := by
  refine h.invariant (P := fun d => d.world.commands.length ≤ cs.length) (Nat.le_refl _) ?_
  intro d l d' hd _ hs
  obtain ⟨op, k, r, -, hr, -⟩ := Handler.step_eq_some hs
  exact (length_of_answer hr).trans hd

/-- What the worker comes to if it is left alone. -/
def left (st : Setup) (wraps : Bool) (s : Connected) : Outcome iface World (Option Unit) :=
  Prog.interp (st.answer wraps) s.worker.prog s.worker.world

theorem left_eq (h : Reaches st wraps i n s.accepted s.worker) :
    s.left st wraps = workerRun st wraps n
      ({ i with closed := s.worker.world.closed }.world s.accepted) := interp_of_reach h

/-- Nothing is called for in vain: every call that counts has been queued, and as long as none of
them is a disconnect the channel is there. -/
structure Queued (s : Connected) : Prop where
  /-- Up to the first disconnect, what is called for is queued. -/
  counts : untilDisconnect s.accepted = untilDisconnect s.called
  /-- Nothing else is. -/
  subset : s.accepted ⊆ s.called
  /-- There are no more of these than of those. -/
  length : s.accepted.length ≤ s.called.length
  /-- The channel is there. -/
  receiver : s.receiver = false → s.worker.world.closed = true ∨ .disconnect ∈ s.accepted

theorem left_of_workerEnded (h : s.workerEnded wraps = true) (w' : World) :
    s.left st wraps ≠ .stuck .recvCmd w' := by
  obtain ⟨⟨w, p⟩, receiver, called, accepted, logged⟩ := s
  cases p with
  | ret o => nofun
  | vis op k =>
    cases op with
    | panic msg => nofun
    | overflow =>
      cases wraps with
      | true => cases h
      | false => nofun
    | _ => cases h

theorem Queued.dropReceiver (h : Queued s) (hreaches : Reaches st wraps i n s.accepted s.worker)
    (hvalid : ∀ c ∈ s.called, st.Valid c) (hn : s.called.length < n)
    (hended : s.workerEnded wraps = true) : Queued { s with receiver := false } := by
  refine ⟨h.counts, h.subset, h.length, ?_⟩
  intro _
  by_contra hnot
  obtain ⟨hopen, hgoes⟩ := not_or.mp hnot
  have hidle : ({ i with closed := s.worker.world.closed }.world s.accepted).Idle := ⟨rfl, rfl⟩
  obtain ⟨w', hstuck⟩ : ∃ w', workerRun st wraps n
      ({ i with closed := s.worker.world.closed }.world s.accepted) = .stuck .recvCmd w' :=
    stuck_of_open hidle rfl rfl (h.length.trans_lt hn) (Bool.eq_false_iff.mpr hopen)
      (fun c hc => hvalid c (h.subset hc)) hgoes
  exact left_of_workerEnded hended w' ((left_eq hreaches).trans hstuck)

theorem Queued.tell (h : Queued s) (hreaches : Reaches st wraps i n s.accepted s.worker)
    (hopen : ¬ s.worker.world.closed = true) (hroom : s.called.length < channelCapacity)
    (what : String) (c : Command) : Queued (s.tell what c) := by
  obtain ⟨hcalled, hreceiver, ⟨hworker, haccepted⟩ | ⟨hworker, haccepted, hrefused⟩⟩ :=
    s.tell_cases what c
  · refine ⟨?_, ?_, ?_, ?_⟩
    · rw [haccepted, hcalled, ← untilDisconnect_append, h.counts, untilDisconnect_append]
    · rw [haccepted, hcalled]
      exact List.append_subset.mpr ⟨List.subset_append_of_subset_left _ h.subset,
        List.subset_append_right _ _⟩
    · rw [haccepted, hcalled, List.length_append, List.length_append]
      exact Nat.add_le_add_right h.length _
    · rw [hreceiver, haccepted]
      exact fun hdropped => .inr (List.mem_append_left _ ((h.receiver hdropped).resolve_left hopen))
  · have hdropped : s.receiver = false := by
      refine hrefused.resolve_right ?_
      have := hreaches.length_le
      have := h.length
      omega
    have hdisconnect : .disconnect ∈ s.accepted := (h.receiver hdropped).resolve_left hopen
    refine ⟨?_, ?_, ?_, ?_⟩
    · rw [haccepted, hcalled, untilDisconnect_of_mem (h.subset hdisconnect), h.counts]
    · rw [haccepted, hcalled]
      exact List.subset_append_of_subset_left _ h.subset
    · rw [haccepted, hcalled, List.length_append]
      exact h.length.trans (Nat.le_add_right _ _)
    · rw [haccepted]
      exact fun _ => .inr hdisconnect

theorem called_of_tell (s : Connected) (what : String) (c : Command) :
    (s.tell what c).called = s.called ++ [c] := (s.tell_cases what c).1

/-- **Nothing is called for in vain**, in every run. -/
theorem queued_of_reach (hr : Reach (Connected.step st wraps) anyStep (.start st i n) s)
    (hvalid : ∀ c ∈ s.called, st.Valid c) (hroom : s.called.length ≤ channelCapacity)
    (hn : s.called.length < n) : Queued s := by
  induction hr with
  | start => exact ⟨rfl, List.Subset.refl _, Nat.le_refl _, nofun⟩
  | @next s s' l hr _ hs ih =>
    have hreaches := reach_worker hr
    cases l with
    | call m =>
      obtain ⟨hopen, hs⟩ := Option.ite_none_left_eq_some.mp hs
      cases hs
      obtain ⟨what, c, hcall⟩ := s.call_eq_tell m
      rw [hcall] at hvalid hroom hn ⊢
      rw [called_of_tell] at hvalid hroom hn
      rw [List.length_append] at hroom hn
      have hroom' : s.called.length < channelCapacity := hroom
      exact (ih (fun c hc => hvalid c (List.mem_append_left _ hc)) hroom'.le
        (Nat.lt_of_succ_lt hn)).tell hreaches hopen hroom' what c
    | work =>
      obtain ⟨worker, hworker, rfl⟩ := Option.map_eq_some_iff.mp hs
      obtain ⟨op, k, r, -, hanswer, -⟩ := Handler.step_eq_some hworker
      have h := ih hvalid hroom hn
      have hclosed : worker.world.closed = s.worker.world.closed := closed_of_answer hanswer
      exact ⟨h.counts, h.subset, h.length, by rw [hclosed]; exact h.receiver⟩
    | dropSender =>
      obtain ⟨hopen, hs⟩ := Option.ite_none_left_eq_some.mp hs
      cases hs
      have h := ih hvalid hroom hn
      exact ⟨h.counts, h.subset, h.length, fun _ => .inl rfl⟩
    | dropReceiver =>
      obtain ⟨hended, hs⟩ := Option.ite_none_right_eq_some.mp hs
      cases hs
      exact (ih hvalid hroom hn).dropReceiver hreaches hvalid hn hended

/-- Left alone, the worker does with what has been queued what it would do with it from the
start. -/
theorem carries_left (h : Reaches st wraps i n s.accepted s.worker) (hn : s.accepted.length < n) :
    Carries st s.accepted ({ i with closed := s.worker.world.closed }.world s.accepted)
      (s.left st wraps) := by
  rw [left_eq h]
  exact workerRun_of_works ⟨rfl, rfl⟩ rfl rfl hn

/-- What a run of calls comes to. -/
structure InOrder (st : Setup) (wraps : Bool) (i : Start) (s : Connected) : Prop where
  /-- What has happened is the beginning of what the calls stand for, in their order. -/
  soFar : s.worker.world.net.effects <+: numbered 1 (untilDisconnect s.called)
  /-- Left alone, the worker brings the rest of it about. -/
  effects : (s.left st wraps).state.net.effects = numbered 1 (untilDisconnect s.called)
  /-- The GPU memories are then those that the calls make, one after the other. -/
  gpu : (s.left st wraps).state.gpu =
    applyAll (untilDisconnect s.called) ⟨i.client .gpu, i.server .gpu⟩
  /-- And the worker has ended, or it waits for another call. -/
  ends : ∃ w', s.left st wraps = .done (some ()) w' ∨ s.left st wraps = .stuck .recvCmd w'

/-- What is not called for in vain is carried out in its order. -/
theorem inOrder_of_queued (hr : Reach (Connected.step st wraps) anyStep (.start st i n) s)
    (hvalid : ∀ c ∈ s.called, st.Valid c) (hqueued : Queued s) (hn : s.called.length < n) :
    InOrder st wraps i s := by
  have haccepted : ∀ c ∈ s.accepted, st.Valid c := fun c hc => hvalid c (hqueued.subset hc)
  obtain ⟨hgpu, heffects, hends⟩ := carries_left (reach_worker hr) (hqueued.length.trans_lt hn)
  rw [effective_of_valid haccepted, hqueued.counts] at hgpu heffects
  refine ⟨?_, heffects, hgpu, hends.drained haccepted⟩
  have hsoFar := effects_interp st wraps s.worker.prog s.worker.world
  have hleft : (s.left st wraps).state.net.effects = _ := heffects
  rw [← Connected.left, hleft] at hsoFar
  exact hsoFar

/-- **The calls are carried out in their order.** Whenever methods are called while the worker runs,
with arguments that are valid, what has happened so far is the beginning of what the calls up to the
first `shutdown` stand for; and from wherever the worker is, it comes to all of it without a panic,
the GPU memories being those of sequential copying. -/
theorem inOrder_of_reach (hr : Reach (Connected.step st wraps) anyStep (.start st i n) s)
    (hvalid : ∀ c ∈ s.called, st.Valid c) (hroom : s.called.length ≤ channelCapacity)
    (hn : s.called.length < n) : InOrder st wraps i s := by
  have hqueued := queued_of_reach hr hvalid hroom hn
  exact inOrder_of_queued hr hvalid hqueued hn

/-- Two calls, the second one while the worker carries out the first. -/
def overlapping : List Label :=
  [.call (.send ⟨65536, 16, 8⟩ ⟨262144, 0, 0⟩), .work, .work, .call (.complete [7]), .work, .work,
    .dropSender]

theorem inOrder_of_reach_overlapping : ∃ s,
    Reach (Connected.step twoBuffers false) anyStep
      (.start twoBuffers ⟨fun _ _ => 1, fun _ _ => 2, false, fun n => n == 0, .new 1024⟩ 3) s ∧
    s.called = [.send ⟨65536, 16, 8⟩ ⟨262144, 0, 0⟩, .complete [7]] ∧
    InOrder twoBuffers false ⟨fun _ _ => 1, fun _ _ => 2, false, fun n => n == 0, .new 1024⟩ s := by
  obtain ⟨s, hr, hcalled⟩ : ∃ s, Reach (Connected.step twoBuffers false) anyStep
      (.start twoBuffers ⟨fun _ _ => 1, fun _ _ => 2, false, fun n => n == 0, .new 1024⟩ 3) s ∧
      s.called = [.send ⟨65536, 16, 8⟩ ⟨262144, 0, 0⟩, .complete [7]] :=
    exists_reach_of_execWithin overlapping ⟨_, rfl, rfl⟩
  refine ⟨s, hr, hcalled, inOrder_of_reach hr ?_ ?_ ?_⟩
  · rw [hcalled]
    decide
  · rw [hcalled]
    decide
  · rw [hcalled]
    decide

end Connected

end Fabric

end RdmaTransport
