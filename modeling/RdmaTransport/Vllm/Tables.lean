import RdmaTransport.Footprints
import RdmaTransport.Vllm.Delivery
import RdmaTransport.Vllm.Sequential

/-!
# The tables when a connection is closed

A done notification is the last that a client writes, and the handler that has returned has decoded
one. So if nothing is lost on the way, the handler has then decoded everything that the client was
told to announce up to its `Disconnect`, once and in order. Both ends record by the same discipline
and what they have recorded is the same sequence, so the two tables are equal: the server reports a
request if and only if the client does.

## Main definitions

* `Command.notice` — the notification of a command
* `Announced`, `Over` — what the worker has put into its page and its table
* `Counted`, `Closed` — what the handler has decoded and recorded

## Main results

* `always_worker_noted`, `always_handler_counted` — each end alone, against any environment
* `tables_of_returned` — the two ends together
-/

namespace RdmaTransport

open Interaction

/-! ### What a queue announces -/

namespace Command

/-- The notification of a command. -/
def notice : Command → Option Notification
  | complete req => some (Client.announcement req)
  | disconnect => some .complete
  | _ => none

/-- Only a disconnect announces the end. -/
theorem done_notice {c : Command} {n : Notification} (hc : c ≠ disconnect)
    (hn : c.notice = some n) : ¬ n.done > 0 := by
  cases c with
  | complete req => cases hn; exact Nat.lt_irrefl 0
  | disconnect => exact absurd rfl hc
  | _ => cases hn

/-- The requests that are announced are those of the commands. -/
theorem reqId_notice (c : Command) : (c.notice.bind fun n => n.reqId) = c.reqId := by
  cases c with
  | complete req => rfl
  | _ => rfl

theorem filterMap_reqId_notice (cs : List Command) :
    (cs.filterMap notice).filterMap (fun n => n.reqId) = cs.filterMap reqId := by
  rw [List.filterMap_filterMap]
  exact congrArg (List.filterMap · cs) (funext reqId_notice)

end Command

/-- The notifications of a queue. -/
def notices (cmds : List Command) : List Notification :=
  (untilDisconnect cmds).filterMap Command.notice

/-- The requests of a queue. -/
def requested (cmds : List Command) : List ReqId :=
  (untilDisconnect cmds).filterMap Command.reqId

/-! ### The worker -/

/-- Between two commands, after `k` of them. -/
structure Announced (cmds : List Command) (k : ℕ) (v : ClientView) : Prop where
  /-- The commands that have been taken. -/
  before : ∃ past, past.length = k ∧ cmds = past ++ v.queue ∧ .disconnect ∉ past ∧
    v.wrote = past.filterMap Command.notice ∧
    v.reqs = (CompletionReqs.new 1024).recordAll (past.filterMap Command.reqId)
  /-- The lock is free. -/
  locked : v.locked = false

/-- At any time. -/
structure Noted (cmds : List Command) (v : ClientView) : Prop where
  /-- What has been put into the page. -/
  wrote : v.wrote <+: notices cmds
  /-- Once that is the end, the table is what the queue asks for. -/
  reqs : Notification.complete ∈ v.wrote →
    v.reqs = (CompletionReqs.new 1024).recordAll (requested cmds)
  /-- From then on the lock is free. -/
  locked : Notification.complete ∈ v.wrote → v.locked = false

/-- At the end. -/
structure Over (cmds : List Command) (v : ClientView) : Prop where
  /-- All has been put into the page. -/
  wrote : v.wrote = notices cmds
  /-- The table is what the queue asks for. -/
  reqs : v.reqs = (CompletionReqs.new 1024).recordAll (requested cmds)
  /-- The lock is free. -/
  locked : v.locked = false

section Worker

variable {cmds past rest : List Command} {v v' : ClientView} {c : Command} {k : ℕ}
  {g : (op : Op) → ClientView → ClientView.Choice → Bool}

theorem Over.noted (h : Over cmds v) : Noted cmds v :=
  ⟨h.wrote ▸ List.prefix_rfl, fun _ => h.reqs, fun _ => h.locked⟩

/-- Nothing has announced the end, and what has been written is the beginning. -/
theorem noted_of_past (hcmds : cmds = past ++ rest) (hgoes : .disconnect ∉ past)
    (hwrote : v.wrote = past.filterMap Command.notice) : Noted cmds v := by
  have hgoing : Notification.complete ∉ v.wrote := by
    intro hdone
    rw [hwrote] at hdone
    obtain ⟨c, hc, hnotice⟩ := List.mem_filterMap.mp hdone
    have hne : c ≠ .disconnect := fun h => hgoes (h ▸ hc)
    exact absurd (by decide) (Command.done_notice hne hnotice)
  refine ⟨?_, fun hdone => absurd hdone hgoing, fun hdone => absurd hdone hgoing⟩
  rw [notices, hcmds, untilDisconnect_append_of_notMem hgoes, List.filterMap_append, hwrote]
  exact List.prefix_append _ _

/-- The end has been announced. -/
theorem over_of_disconnect (hcmds : cmds = past ++ .disconnect :: rest)
    (hgoes : .disconnect ∉ past)
    (hwrote : v.wrote = (past ++ [Command.disconnect]).filterMap Command.notice)
    (hreqs : v.reqs = (CompletionReqs.new 1024).recordAll (past.filterMap Command.reqId))
    (hlocked : v.locked = false) : Over cmds v := by
  have huntil : untilDisconnect cmds = past ++ [.disconnect] := by
    rw [hcmds, untilDisconnect_append_of_notMem hgoes, untilDisconnect, if_pos rfl]
  refine ⟨?_, ?_, hlocked⟩
  · rw [notices, huntil, hwrote]
  · rw [requested, huntil, List.filterMap_append, hreqs]
    exact congrArg _ (List.append_nil _).symm

theorem Announced.noted (h : Announced cmds k v) : Noted cmds v := by
  obtain ⟨⟨past, -, hcmds, hgoes, hwrote, -⟩, -⟩ := h
  exact noted_of_past hcmds hgoes hwrote

/-- The channel is closed, and its queue is empty. -/
theorem Announced.over (h : Announced cmds k v) (hqueue : v.queue = []) : Over cmds v := by
  obtain ⟨⟨past, -, hcmds, hgoes, hwrote, hreqs⟩, hlocked⟩ := h
  have huntil : untilDisconnect cmds = past := by
    rw [hcmds, hqueue, untilDisconnect_append_of_notMem hgoes, untilDisconnect, List.append_nil]
  refine ⟨?_, ?_, hlocked⟩
  · rw [notices, huntil, hwrote]
  · rw [requested, huntil, hreqs]

/-- What the invariant depends on is as before. -/
structure Unmoved (v v' : ClientView) : Prop where
  /-- The queue. -/
  queue : v'.queue = v.queue
  /-- The page. -/
  wrote : v'.wrote = v.wrote
  /-- The table. -/
  reqs : v'.reqs = v.reqs
  /-- Its lock. -/
  locked : v'.locked = v.locked

theorem Noted.congr (h : Noted cmds v) (hv : Unmoved v v') : Noted cmds v' where
  wrote := hv.wrote ▸ h.wrote
  reqs := by rw [hv.wrote, hv.reqs]; exact h.reqs
  locked := by rw [hv.wrote, hv.locked]; exact h.locked

theorem Over.congr (h : Over cmds v) (hv : Unmoved v v') : Over cmds v' :=
  ⟨hv.wrote.trans h.wrote, hv.reqs.trans h.reqs, hv.locked.trans h.locked⟩

/-- One operation on the connection, however it ends. -/
theorem unmoved_postAndPoll {wr : IbvSendWr} {name what : String} (h : Noted cmds v) :
    (Handler.within ClientView.handler g).Always (fun _ => Noted cmds) (fun _ => Unmoved v)
      (postAndPoll wr name what).run v := by
  refine always_postAndPoll h ?_ ?_ ?_ ?_
  · exact fun _ _ _ _ => ⟨rfl, rfl, rfl, rfl⟩
  · exact fun _ _ _ => h.congr ⟨rfl, rfl, rfl, rfl⟩
  · exact fun _ _ _ _ => ⟨rfl, rfl, rfl, rfl⟩
  · exact fun _ _ _ _ _ => ⟨fun _ => ⟨rfl, rfl, rfl, rfl⟩, fun _ _ => ⟨rfl, rfl, rfl, rfl⟩⟩

/-- What an arm comes to, after `k` commands. -/
def Notes (cmds : List Command) (k : ℕ) (o : Option Unit) (v : ClientView) : Prop :=
  o.elim (Announced cmds k v) fun _ => Over cmds v

theorem noted_of_notes {o : Option Unit} (h : Notes cmds k o v) : Noted cmds v := by
  cases o with
  | none => exact Announced.noted h
  | some _ => exact Over.noted h

/-- The command `c` has been taken, and nothing has been done about it. -/
structure Taking (cmds past : List Command) (c : Command) (v : ClientView) : Prop where
  /-- Where it is in the queue. -/
  split : cmds = past ++ c :: v.queue
  /-- There is no disconnect before it. -/
  goes : .disconnect ∉ past
  /-- What has been put into the page before. -/
  wrote : v.wrote = past.filterMap Command.notice
  /-- What has been recorded before. -/
  reqs : v.reqs = (CompletionReqs.new 1024).recordAll (past.filterMap Command.reqId)
  /-- The lock is free. -/
  locked : v.locked = false

theorem Taking.noted (h : Taking cmds past c v) : Noted cmds v :=
  noted_of_past h.split h.goes h.wrote

theorem Taking.congr (h : Taking cmds past c v) (hv : Unmoved v v') : Taking cmds past c v' where
  split := by rw [hv.queue]; exact h.split
  goes := h.goes
  wrote := hv.wrote.trans h.wrote
  reqs := hv.reqs.trans h.reqs
  locked := hv.locked.trans h.locked

/-- A command is over once it has announced and recorded what it asks for. -/
theorem announced_of_done (hsplit : cmds = past ++ c :: v.queue) (hgoes : .disconnect ∉ past)
    (hc : c ≠ .disconnect) (hwrote : v.wrote = (past ++ [c]).filterMap Command.notice)
    (hreqs : v.reqs = (CompletionReqs.new 1024).recordAll ((past ++ [c]).filterMap Command.reqId))
    (hlocked : v.locked = false) : Announced cmds (past.length + 1) v := by
  refine ⟨⟨past ++ [c], ?_, ?_, ?_, hwrote, hreqs⟩, hlocked⟩
  · rw [List.length_append, List.length_singleton]
  · rw [hsplit, List.append_assoc, List.singleton_append]
  · simpa [hgoes] using hc.symm

/-- A command that announces nothing is over. -/
theorem Taking.announced (h : Taking cmds past c v) (hc : c ≠ .disconnect)
    (hnotice : c.notice = none) : Announced cmds (past.length + 1) v := by
  have hreqId : c.reqId = none := by rw [← Command.reqId_notice, hnotice]; rfl
  refine announced_of_done h.split h.goes hc ?_ ?_ h.locked
  · rw [List.filterMap_append, List.filterMap_cons_none hnotice]
    exact h.wrote.trans (List.append_nil _).symm
  · rw [List.filterMap_append, List.filterMap_cons_none hreqId]
    exact h.reqs.trans (congrArg _ (List.append_nil _).symm)

theorem noted_transferArm {s : Session} {loc rem : TensorBlock} {opcode : WrOpcode}
    {op : Connection → IbvMr → UInt64 → UInt64 → UInt32 → Fallible Unit}
    (hop : Client.IsTransfer op opcode) (h : Taking cmds past c v) (hc : c ≠ .disconnect)
    (hnotice : c.notice = none) :
    (Handler.within ClientView.handler g).Always (fun _ => Noted cmds)
      (Notes cmds (past.length + 1)) (Client.transferArm s op loc rem) v :=
  always_transferArm hop h.noted (fun _ => h.noted) (fun _ _ _ _ => unmoved_postAndPoll h.noted)
    fun _ _ hv => ⟨(h.congr hv).announced hc hnotice, fun _ => (h.congr hv).noted⟩

theorem noted_completeArm (s : Session) {req : ReqId} (h : Taking cmds past (.complete req) v) :
    (Handler.within ClientView.handler g).Always (fun _ => Noted cmds)
      (Notes cmds (past.length + 1)) (Client.completeArm s req) v := by
  obtain ⟨hsplit, hgoes, hwrote, hreqs, -⟩ := h
  have hwrote' : v.wrote ++ [Client.announcement req] =
      (past ++ [Command.complete req]).filterMap Command.notice := by
    rw [List.filterMap_append, hwrote]
    rfl
  have hreqs' : v.reqs.record req = (CompletionReqs.new 1024).recordAll
      ((past ++ [Command.complete req]).filterMap Command.reqId) := by
    rw [List.filterMap_append, hreqs]
    exact (CompletionReqs.recordAll_concat _ _ _).symm
  have hbefore : Noted cmds v := noted_of_past hsplit hgoes hwrote
  have hafter (v' : ClientView) (hv : v'.wrote = v.wrote ++ [Client.announcement req]) :
      Noted cmds v' := by
    have hsplit' : cmds = past ++ [.complete req] ++ v.queue := by
      rw [hsplit, List.append_assoc, List.singleton_append]
    exact noted_of_past hsplit' (by simpa using hgoes) (hv.trans hwrote')
  refine always_completeArm hbefore (fun _ _ => hbefore.congr ⟨rfl, rfl, rfl, rfl⟩)
    (fun _ => hbefore.congr ⟨rfl, rfl, rfl, rfl⟩) (hafter _ rfl) (hafter _ rfl)
    (unmoved_postAndPoll (hafter _ rfl)) ?_
  intro r v' hv
  refine ⟨hafter _ hv.wrote, fun _ => hafter _ hv.wrote, hafter _ hv.wrote, ?_⟩
  refine announced_of_done (c := .complete req) ?_ hgoes nofun (hv.wrote.trans hwrote')
    (hv.reqs.trans hreqs') rfl
  exact hv.queue ▸ hsplit

theorem noted_disconnectArm (s : Session) (h : Taking cmds past .disconnect v) :
    (Handler.within ClientView.handler g).Always (fun _ => Noted cmds) (Notes cmds k)
      (Client.disconnectArm s) v := by
  have hwrote : v.wrote ++ [Notification.complete] =
      (past ++ [Command.disconnect]).filterMap Command.notice := by
    rw [List.filterMap_append, h.wrote]
    rfl
  have hafter : Over cmds (v.announcing .complete) :=
    over_of_disconnect h.split h.goes hwrote h.reqs h.locked
  refine always_disconnectArm h.noted h.noted (h.noted.congr ⟨rfl, rfl, rfl, rfl⟩)
    (unmoved_postAndPoll hafter.noted) ?_
  intro r v' hv
  exact ⟨fun _ => (hafter.congr hv).noted, (hafter.congr hv).noted, hafter.congr hv⟩

theorem noted_arm (s : Session) (h : Taking cmds past c v) :
    (Handler.within ClientView.handler g).Always (fun _ => Noted cmds)
      (Notes cmds (past.length + 1)) (Client.arm s c) v := by
  cases c with
  | send loc rem =>
    have hgoes : Command.send loc rem ≠ .disconnect := by simp
    rw [Client.arm]
    split
    · exact noted_transferArm Client.isTransfer_write h hgoes rfl
    · exact h.announced hgoes rfl
  | recv loc rem =>
    have hgoes : Command.recv loc rem ≠ .disconnect := by simp
    rw [Client.arm]
    split
    · exact noted_transferArm Client.isTransfer_read h hgoes rfl
    · exact h.announced hgoes rfl
  | complete req => exact noted_completeArm s h
  | disconnect => exact noted_disconnectArm s h

/-- **The worker alone.** What it has put into its page is the beginning of what the queue
announces, and once it has left its loop that is all of it, and its table is what the queue asks
for. -/
theorem always_worker_noted (s : Session) (cmds : List Command) (n : ℕ) :
    (Handler.within ClientView.handler g).Always (fun _ => Noted cmds) (Notes cmds n)
      (Client.worker s n) (.init cmds) := by
  have hinit : Announced cmds 0 (.init cmds) := ⟨⟨[], rfl, rfl, nofun, rfl, rfl⟩, rfl⟩
  refine always_worker_counted n hinit (fun _ _ hv => hv.noted) ?_ fun _ _ hv => hv.over
  intro i v c rest hv hqueue
  obtain ⟨⟨past, rfl, hcmds, hgoes, hwrote, hreqs⟩, hlocked⟩ := hv
  exact noted_arm s ⟨hqueue ▸ hcmds, hgoes, hwrote, hreqs, hlocked⟩

end Worker

/-! ### The handler -/

/-- Between two passes, after `k` of them: none of their notifications has been the last, and all
have been recorded. -/
structure Counted (k : ℕ) (v : ServerView) : Prop where
  /-- How many they are. -/
  length : v.decoded.length = k
  /-- None of them is done. -/
  goes : ∀ n ∈ v.decoded, ¬ n.done > 0
  /-- The table. -/
  reqs : v.reqs = (CompletionReqs.new 1024).recordAll (v.decoded.filterMap fun n => n.reqId)
  /-- Its lock. -/
  locked : v.locked = false

/-- After the loop: the last notification, and no other, is done, and the others have been
recorded. -/
def Closed (v : ServerView) : Prop :=
  ∃ ns n, v.decoded = ns ++ [n] ∧ n.done > 0 ∧ (∀ m ∈ ns, ¬ m.done > 0) ∧
    v.reqs = (CompletionReqs.new 1024).recordAll (ns.filterMap fun n => n.reqId) ∧
    v.locked = false

/-- Whoever waits for a notification is between two passes. -/
def WaitRule (op : Op) (v : ServerView) : Prop := op = .ibvPollCq .recv → ∃ k, Counted k v

/-- What a pass comes to, after `k` of them. -/
def Counts (k : ℕ) (o : Option Unit) (v : ServerView) : Prop :=
  o.elim (Counted k v) fun _ => Closed v

section Handler

variable {v v' : ServerView} {op : Op} {cpuMr : IbvMr} {cpuBuffer : MemBuffer} {k : ℕ}

/-- What takes a receive leaves the table alone and decodes nothing. -/
theorem frame_of_handling {r : op.Ans} {choice : ServerView.Choice}
    (hop : Handling cpuMr cpuBuffer op)
    (hr : ServerView.handler op v choice = some (r, v')) :
    v'.decoded = v.decoded ∧ v'.reqs = v.reqs ∧ v'.locked = v.locked := by
  cases op with
  | ibvPostRecv wr =>
    cases choice <;> cases hr
    split <;> exact ⟨rfl, rfl, rfl⟩
  | ibvPollCq cq =>
    cases cq <;> cases choice <;> cases hr
    cases r <;> exact ⟨rfl, rfl, rfl⟩
  | readPage buf =>
    cases choice <;> cases hr
    rw [ServerView.sawPage]
    split <;> exact ⟨rfl, rfl, rfl⟩
  | rdmaDisconnect =>
    cases choice <;> cases hr
    exact ⟨rfl, rfl, rfl⟩
  | observe o =>
    cases choice <;> cases hr
    cases o with
    | info msg => exact ⟨rfl, rfl, rfl⟩
    | error msg e => exact ⟨rfl, rfl, rfl⟩
    | _ => exact hop.elim
  | panic msg => cases choice <;> cases hr
  | _ => exact hop.elim

theorem Counted.congr (hdecoded : v'.decoded = v.decoded) (hreqs : v'.reqs = v.reqs)
    (hlocked : v'.locked = v.locked) (h : Counted k v) : Counted k v' :=
  ⟨by rw [hdecoded]; exact h.length, by rw [hdecoded]; exact h.goes,
    by rw [hdecoded, hreqs]; exact h.reqs, hlocked.trans h.locked⟩

/-- What takes a receive stays between two passes. -/
theorem counted_of_handling {α : Type} {p : Task α} (hp : p.Only (Handling cpuMr cpuBuffer))
    (hv : Counted k v) : ServerView.handler.Always WaitRule (fun _ => Counted k) p v := by
  refine Handler.Always.of_only hp hv (fun _ _ _ hv _ => ⟨k, hv⟩) ?_
  intro op v choice r v' hop hv hr
  obtain ⟨hdecoded, hreqs, hlocked⟩ := frame_of_handling hop hr
  exact hv.congr hdecoded hreqs hlocked

/-- What a pass does with a notification. -/
theorem counted_handlerTail (hv : Counted k v) (n : Notification) :
    ServerView.handler.Always WaitRule (Counts (k + 1)) (Server.handlerTail n) v := by
  refine ⟨by simp [WaitRule], ?_⟩
  intro choice _ v₁ h₁
  cases choice <;> cases h₁
  have hlength : (v.decoded ++ [n]).length = k + 1 := by
    rw [List.length_append, hv.length, List.length_singleton]
  by_cases hdone : n.done > 0
  · rw [if_pos hdone]
    refine ⟨by simp [WaitRule], ?_⟩
    intro choice _ v₂ h₂
    cases choice <;> cases h₂
    exact ⟨v.decoded, n, rfl, hdone, hv.goes, hv.reqs, hv.locked⟩
  · rw [if_neg hdone]
    have hgoes : ∀ m ∈ v.decoded ++ [n], ¬ m.done > 0 := by
      intro m hm
      rcases List.mem_append.mp hm with hm | hm
      · exact hv.goes m hm
      · rwa [List.mem_singleton.mp hm]
    cases hreq : n.reqId with
    | none =>
      refine ⟨hlength, hgoes, ?_, hv.locked⟩
      show v.reqs = _
      rw [hv.reqs]
      simp [ServerView.note, hreq]
    | some req =>
      refine ⟨by simp [WaitRule], ?_⟩
      intro choice _ v₂ h₂
      cases choice <;> cases h₂
      refine ⟨by simp [WaitRule], ?_⟩
      intro choice _ v₃ h₃
      cases choice <;> cases h₃
      refine ⟨by simp [WaitRule], ?_⟩
      intro choice _ v₄ h₄
      cases choice <;> cases h₄
      refine ⟨hlength, hgoes, ?_, rfl⟩
      show v.reqs.record req = _
      rw [hv.reqs]
      simp [ServerView.note, hreq]

/-- **The handler alone.** Whenever it waits for a notification, none of those before has been done
and all have been recorded; and when it has left its loop, the last one, and no other, is done. -/
theorem always_handler_counted (cpuMr : IbvMr) (cpuBuffer : MemBuffer) (n : ℕ) :
    ServerView.handler.Always WaitRule (Counts n) (Server.handler cpuMr cpuBuffer n) .init := by
  have hpass (i : ℕ) (v : ServerView) (hv : Counted i v) : ServerView.handler.Always WaitRule
      (Counts (i + 1)) (Server.handlerIteration cpuMr cpuBuffer) v := by
    rw [Server.handlerIteration_eq]
    refine (counted_of_handling (Server.only_handleNotification _ _) hv).bind ?_
    intro r v₁ hv₁
    cases r with
    | error e => exact ⟨by simp [WaitRule], fun _ r => r.elim⟩
    | ok n => exact counted_handlerTail hv₁ n
  have hinit : Counted 0 .init := ⟨rfl, fun _ hn => absurd hn List.not_mem_nil, rfl, rfl⟩
  rw [Server.handler_eq]
  refine (Handler.Always.loop_counted (R := fun _ => Closed) hpass 0 n hinit).bind ?_
  rw [Nat.zero_add]
  intro o v hv
  cases o with
  | none => exact hv
  | some _ =>
    have hclosed : Closed v := hv
    refine ⟨by simp [WaitRule], ?_⟩
    intro choice r v₁ h₁
    cases choice <;> cases h₁
    cases hcall : rdmaCall "rdma_disconnect" r with
    | ok _ =>
      simp only [hcall, Task.unwrap]
      exact hclosed
    | error e =>
      simp only [hcall, Task.unwrap, Task.panic_bind]
      exact ⟨by simp [WaitRule], fun _ r => r.elim⟩

end Handler

/-! ### Both ends -/

/-- All that a queue announces but the last is not done. -/
theorem notices_cases (cmds : List Command) :
    ∃ ns, (∀ n ∈ ns, ¬ n.done > 0) ∧ ns.filterMap (fun n => n.reqId) = requested cmds ∧
      (notices cmds = ns ∨ notices cmds = ns ++ [.complete]) := by
  obtain ⟨past, hgoes, huntil⟩ := untilDisconnect_cases cmds
  refine ⟨past.filterMap Command.notice, ?_, ?_, ?_⟩
  · intro n hn
    obtain ⟨c, hc, hnotice⟩ := List.mem_filterMap.mp hn
    exact Command.done_notice (fun h => hgoes (h ▸ hc)) hnotice
  · rw [Command.filterMap_reqId_notice, requested]
    rcases huntil with ⟨-, huntil⟩ | ⟨rest, -, huntil⟩
    · rw [huntil]
    · rw [huntil, List.filterMap_append]
      exact (List.append_nil _).symm
  · rw [notices]
    rcases huntil with ⟨-, huntil⟩ | ⟨rest, -, huntil⟩
    · exact .inl (by rw [huntil])
    · refine .inr ?_
      rw [huntil, List.filterMap_append]
      rfl

/-- A done notification of a queue is its last: what has come that far is all of it. -/
theorem eq_notices_of_prefix {cmds : List Command} {ns : List Notification} {n : Notification}
    (h : ns ++ [n] <+: notices cmds) (hdone : n.done > 0) :
    ns ++ [n] = notices cmds ∧ n = .complete ∧
      ns.filterMap (fun n => n.reqId) = requested cmds := by
  obtain ⟨ms, hms, hreqs, hall⟩ := notices_cases cmds
  have hnotMem : ¬ ns ++ [n] <+: ms := by
    intro h
    exact hms n (h.subset (List.mem_append_right _ (List.mem_singleton_self n))) hdone
  rcases hall with hall | hall
  · exact absurd (hall ▸ h) hnotMem
  · rw [hall] at h ⊢
    have heq := (List.prefix_concat_iff.mp h).resolve_right hnotMem
    obtain ⟨rfl, hn⟩ := List.append_inj' heq rfl
    exact ⟨heq, List.head_eq_of_cons_eq hn, hreqs⟩

/-- Each end does what it does alone. -/
structure Ending (cmds : List Command) (n m : ℕ) (s : Sys) : Prop where
  /-- The worker. -/
  client : (Handler.within ClientView.handler fun _ _ _ => true).Always (fun _ => Noted cmds)
    (Notes cmds n) s.client.prog s.client.world
  /-- The handler. -/
  server : ServerView.handler.Always WaitRule (Counts m) s.server.prog s.server.world

section Results

variable {s s' : Sys} {l : Sys.Label} {cmds : List Command} {n m : ℕ}

theorem ending_init (session : Session) (cmds : List Command) (n : ℕ) (cpuMr : IbvMr)
    (cpuBuffer : MemBuffer) (m : ℕ) (clientPage serverPage : Page) :
    Ending cmds n m (.init session cmds n cpuMr cpuBuffer m clientPage serverPage) :=
  ⟨always_worker_noted session cmds n, always_handler_counted cpuMr cpuBuffer m⟩

theorem Ending.noted (h : Ending cmds n m s) : Noted cmds s.client.world := by
  have hclient := h.client
  cases hprog : s.client.prog with
  | vis op k =>
    rw [hprog] at hclient
    exact hclient.head
  | ret o =>
    rw [hprog] at hclient
    exact noted_of_notes hclient

theorem Ending.step (h : Ending cmds n m s) (hs : s.step l = some s') : Ending cmds n m s' := by
  cases l with
  | client choice =>
    obtain ⟨op, k, r, v', wire, hprog, hv, -, rfl⟩ := Sys.step_client hs
    have hclient := h.client
    rw [hprog] at hclient
    exact ⟨hclient.2 choice r v' (Handler.within_eq_some.mpr ⟨rfl, hv⟩), h.server⟩
  | server choice =>
    obtain ⟨op, k, r, v', wire, hprog, hv, -, rfl⟩ := Sys.step_server hs
    have hserver := h.server
    rw [hprog] at hserver
    exact ⟨h.client, hserver.2 choice r v' hv⟩
  | read =>
    obtain ⟨buf, k, hprog, rfl⟩ := Sys.step_read hs
    have hserver := h.server
    rw [hprog] at hserver
    exact ⟨h.client, hserver.2 (.page s.wire.serverPage) _ _ rfl⟩
  | place n =>
    obtain ⟨w', -, rfl⟩ := Option.map_eq_some_iff.mp hs
    exact ⟨h.client, h.server⟩
  | finish =>
    obtain ⟨w', -, rfl⟩ := Option.map_eq_some_iff.mp hs
    exact ⟨h.client, h.server⟩
  | fail status =>
    obtain ⟨w', -, rfl⟩ := Option.map_eq_some_iff.mp hs
    exact ⟨h.client, h.server⟩

/-- What is decoded is a part of what is written, which is a part of what is announced. -/
theorem decoded_prefix_notices (hlinked : Linked cmds true s) (h : Ending cmds n m s) :
    s.decoded <+: notices cmds := by
  obtain ⟨pending, -, -, hall⟩ := hlinked.serverSide
  refine List.IsPrefix.trans ?_ h.noted.wrote
  rw [← Sys.wrote, ← hall rfl, List.append_assoc]
  exact List.prefix_append _ _

/-- What the handler has decoded and recorded when it has left its loop. -/
structure ReadAll (cmds : List Command) (s : Sys) : Prop where
  /-- All that the queue announces. -/
  decoded : s.decoded = notices cmds
  /-- The end is a part of it. -/
  done : .complete ∈ s.decoded
  /-- Its table is what the queue asks for. -/
  reqs : s.server.world.reqs = (CompletionReqs.new 1024).recordAll (requested cmds)
  /-- The lock is free. -/
  locked : s.server.world.locked = false

theorem readAll_of_closed (hlinked : Linked cmds true s) (h : Ending cmds n m s)
    (hclosed : Closed s.server.world) : ReadAll cmds s := by
  obtain ⟨ns, last, hdecoded, hdone, -, hreqs, hlocked⟩ := hclosed
  have hprefix : ns ++ [last] <+: notices cmds := hdecoded ▸ decoded_prefix_notices hlinked h
  obtain ⟨hnotices, rfl, hrequested⟩ := eq_notices_of_prefix hprefix hdone
  refine ⟨hdecoded.trans hnotices, ?_, by rw [hreqs, hrequested], hlocked⟩
  rw [Sys.decoded, hdecoded]
  exact List.mem_append_right _ (List.mem_singleton_self _)

variable (session : Session) (n : ℕ) (cpuMr : IbvMr) (cpuBuffer : MemBuffer) (m : ℕ)
  (clientPage serverPage : Page)

/-- **The tables at the end.** In every run in which the client's calls succeed and no bytes land on
an unread notification, once the handler has returned it has decoded what the queue announces up to
its `Disconnect`, once and in order, and both tables are what recording the requests of the queue
makes of an empty one. Neither table is locked, so the two `is_complete` give the same answer to
every question. -/
theorem tables_of_returned
    (h : Reach Sys.step Sys.deliversAll
      (.init session cmds n cpuMr cpuBuffer m clientPage serverPage) s)
    (hreturned : s.server.prog = .ret (some ())) :
    s.decoded = notices cmds ∧
      s.server.world.reqs = (CompletionReqs.new 1024).recordAll (requested cmds) ∧
      s.client.world.reqs = s.server.world.reqs ∧
      s.client.world.locked = false ∧ s.server.world.locked = false ∧
      ∀ reqId, s.client.world.isComplete reqId = s.server.world.isComplete reqId := by
  obtain ⟨hending, hlinked⟩ : Ending cmds n m s ∧ Linked cmds true s := by
    refine h.invariant (P := fun s => Ending cmds n m s ∧ Linked cmds true s) ?_ ?_
    · exact ⟨ending_init session cmds n cpuMr cpuBuffer m clientPage serverPage,
        linked_init session n cpuMr cpuBuffer m clientPage serverPage⟩
    · rintro s l s' ⟨hending, hlinked⟩ hg hs
      obtain ⟨hcalls, hundisturbed⟩ := (Bool.and_eq_true _ _).mp hg
      refine ⟨hending.step hs, linked_step hlinked hundisturbed ?_ (fun _ => hcalls) hs⟩
      exact Sys.clientPermits_mono (fun _ _ _ => transfersSucceed_of_callsSucceed) hcalls
  have hclosed : Closed s.server.world := by
    have hserver := hending.server
    rw [hreturned] at hserver
    exact hserver
  have hread := readAll_of_closed hlinked hending hclosed
  have hwrote : Notification.complete ∈ s.client.world.wrote := by
    obtain ⟨pending, -, -, hall⟩ := hlinked.serverSide
    rw [← Sys.wrote, ← hall rfl, List.append_assoc]
    exact List.mem_append_left _ hread.done
  have hreqs : s.client.world.reqs = s.server.world.reqs :=
    (hending.noted.reqs hwrote).trans hread.reqs.symm
  have hlocked : s.client.world.locked = false := hending.noted.locked hwrote
  refine ⟨hread.decoded, hread.reqs, hreqs, hlocked, hread.locked, fun reqId => ?_⟩
  rw [ClientView.isComplete, ServerView.isComplete, hreqs, hlocked, hread.locked]

/-- A request, and the end. -/
theorem tables_of_returned_bare :
    ∃ s, Reach Sys.step Sys.deliversAll
      (.init bareSession [.complete [1], .disconnect] 2 ⟨8192, cpuBufferBaseSize, 11, 11⟩ ⟨8192⟩ 2
        .zero .zero) s ∧
      s.server.prog = .ret (some ()) ∧
      s.server.world.reqs = (CompletionReqs.new 1024).recordAll [[1]] ∧
      s.client.world.reqs = s.server.world.reqs ∧
      s.client.world.locked = false ∧ s.server.world.locked = false ∧
      ∀ reqId, s.client.world.isComplete reqId = s.server.world.isComplete reqId := by
  obtain ⟨s, hs, hreturned⟩ : ∃ s, Reach Sys.step Sys.deliversAll
      (.init bareSession [.complete [1], .disconnect] 2 ⟨8192, cpuBufferBaseSize, 11, 11⟩ ⟨8192⟩ 2
        .zero .zero) s ∧ s.server.prog = .ret (some ()) :=
    exists_reach_of_execWithin (announceLabels ++ [.server (.ret (.ret 0 0)), .finish,
      .server (.polled (.entry ⟨ibvWcSuccess, ibvWcRecvRdmaWithImm, htonl 14⟩)), .read,
      .server .go, .server .go, .server .go, .server .go] ++ announcedLabels ++
      [.client .go, .client .go, .client .go, .client .go, .client (.ret (.ret 0 0)),
        .server (.ret (.ret 0 0)), .finish,
        .server (.polled (.entry ⟨ibvWcSuccess, ibvWcRecvRdmaWithImm, htonl 5⟩)), .read,
        .server .go, .server .go, .server (.ret (.ret 0 0))]) ⟨_, rfl, rfl⟩
  exact ⟨s, hs, hreturned, (tables_of_returned bareSession 2 _ _ 2 _ _ hs hreturned).2⟩

end Results

end RdmaTransport
