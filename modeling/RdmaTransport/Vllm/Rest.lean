import RdmaTransport.Internal.Leads
import RdmaTransport.Vllm.Tables

/-!
# The data path comes to rest

The worker and the handler wait for each other: a notification waits for a receive, which the
handler posts only when it has dealt with the one before; the handler waits for a completion, which
comes only with a notification; and the worker waits for its own completion before it takes the next
command. If all calls succeed and no bytes land on an unread notification, that never ends in a
deadlock, and it does end: every run is finite, and where it cannot go on the worker has returned,
everything it was told to announce has been decoded, both tables say the same, and the handler has
returned if it was told to, or waits for the next notification with its receive posted.

## Main definitions

* `clientSucceeds`, `serverSucceeds`, `Sys.delivers` — what is asked of a run
* `Session.Carries` — the commands that a worker carries out
* `AtRest` — the state at the end

## Main results

* `always_worker_working` — the worker never aborts
* `always_handler_reading` — the handler aborts only over a page that it cannot read
* `leads_atRest` — every run comes to rest
-/

namespace RdmaTransport

open Interaction

/-! ### What is asked of a run -/

/-- The calls of the worker succeed. -/
def clientSucceeds : (op : Op) → ClientView → ClientView.Choice → Bool
  | .rdmaDisconnect, _, .ret r => CRet.isOk r
  | op, v, choice => Sys.callsSucceed op v choice

/-- The calls of the handler succeed. -/
def serverSucceeds : (op : Op) → ServerView → ServerView.Choice → Bool
  | .ibvPostRecv _, _, .ret r => CRet.isOk r
  | .rdmaDisconnect, _, .ret r => CRet.isOk r
  | .ibvPollCq .recv, _, .polled p =>
    match p with
    | .entry wc => wc.status == ibvWcSuccess
    | _ => false
  | _, _, _ => true

/-- All calls succeed, no request fails, and no bytes land on an unread notification. Of an early
segment at least one byte lands. -/
def Sys.delivers (s : Sys) : Sys.Label → Bool
  | .client choice => Handler.permits clientSucceeds s.client choice
  | .server choice => Handler.permits serverSucceeds s.server choice
  | .place n => decide (0 < n) && !s.unread
  | .fail _ => false
  | _ => true

/-- The worker carries the command out: both base pointers are known and no sum wraps, or the
notification fits the page. -/
def Session.Carries (s : Session) : Command → Prop
  | .send loc rem | .recv loc rem => loc.size > 0 → ∃ conn mr buffer,
      s.remoteGpuBuffers.lookup rem.basePtr = some conn ∧
      s.localGpuBuffers.lookup loc.basePtr = some (mr, buffer) ∧
      loc.basePtr.toNat + loc.offset.toNat < 2 ^ 64 ∧ conn.basePtr.toNat + rem.offset.toNat < 2 ^ 64
  | .complete reqId => (Client.announcement reqId).serializedSize ≤ cpuBufferBaseSize
  | .disconnect => True

/-! ### The worker -/

/-- The operations of a worker that does not abort. -/
def Working : Op → Prop
  | .recvCmd | .writePage _ _ | .observe _ | .lockReqs | .putReqs _ | .unlockReqs => True
  | .ibvPostSend _ | .ibvPollCq .send | .rdmaDisconnect => True
  | _ => False

/-- The page is not in use. -/
def Resting (v : ClientView) : Prop := v.stage = .idle

section Worker

variable {s : Session} {v : ClientView} {c : Command} {loc rem : TensorBlock} {opcode : WrOpcode}
  {op : Connection → IbvMr → UInt64 → UInt64 → UInt32 → Fallible Unit}

/-- What an operation on the connection leaves behind. -/
structure Performed (v : ClientView) (r : Except TransportErrors Unit) (v' : ClientView) :
    Prop where
  /-- It succeeds. -/
  ok : r = .ok ()
  /-- The page is not in use any more. -/
  stage : v'.stage = .idle
  /-- The queue is as before. -/
  queue : v'.queue = v.queue

theorem performed_postAndPoll {wr : IbvSendWr} {name what : String}
    (hstage : v.stage = .idle ∨ ∃ n, v.stage = .ready n) :
    (Handler.within ClientView.handler clientSucceeds).Always (fun op _ => Working op)
      (Performed v) (postAndPoll wr name what).run v := by
  refine always_postAndPoll trivial ?_ (fun _ _ _ => trivial) ?_ ?_
  · intro r hr hg
    exact absurd (hr.symm.trans hg) Bool.false_ne_true
  · intro p hp hg
    cases p with
    | entry wc => exact absurd rfl (hp wc)
    | _ => exact absurd hg Bool.false_ne_true
  · intro wc k rest _ hg
    have hwc : wc.status = ibvWcSuccess := beq_iff_eq.mp hg
    refine ⟨fun _ => ⟨rfl, ?_, rfl⟩, fun hne => absurd hwc hne⟩
    rcases hstage with hstage | ⟨n, hstage⟩ <;>
      simp [ClientView.completed, ClientView.accepted, hstage, Stage.post, Stage.complete]

/-- What an arm comes to. -/
def Carried (queue : List Command) (o : Option Unit) (v : ClientView) : Prop :=
  Resting v ∧ (o = none → v.queue = queue)

theorem working_transferArm (hop : Client.IsTransfer op opcode) (hv : Resting v)
    (hc : ∃ conn mr buffer, s.remoteGpuBuffers.lookup rem.basePtr = some conn ∧
      s.localGpuBuffers.lookup loc.basePtr = some (mr, buffer) ∧
      loc.basePtr.toNat + loc.offset.toNat < 2 ^ 64 ∧
      conn.basePtr.toNat + rem.offset.toNat < 2 ^ 64) :
    (Handler.within ClientView.handler clientSucceeds).Always (fun op _ => Working op)
      (Carried v.queue) (Client.transferArm s op loc rem) v := by
  obtain ⟨conn, mr, buffer, hrem, hloc, hlocal, hremote⟩ := hc
  obtain ⟨name, what, hop⟩ := hop
  rw [Client.transferArm_of_lookup hrem hloc, Task.addU64_of_lt hlocal, Prog.ret_bind,
    Task.addU64_of_lt hremote, Prog.ret_bind, hop]
  refine (performed_postAndPoll (.inl hv)).bind ?_
  rintro _ v' ⟨rfl, hstage, hqueue⟩
  exact ⟨hstage, fun _ => hqueue⟩

theorem working_completeArm {reqId : ReqId}
    (hfits : (Client.announcement reqId).serializedSize ≤ cpuBufferBaseSize) :
    (Handler.within ClientView.handler clientSucceeds).Always (fun op _ => Working op)
      (Carried v.queue) (Client.completeArm s reqId) v := by
  refine always_completeArm trivial (fun h => absurd hfits h) (fun _ => trivial) trivial trivial
    (performed_postAndPoll (.inr ⟨_, rfl⟩)) ?_
  rintro r v' ⟨-, hstage, hqueue⟩
  exact ⟨trivial, fun _ => trivial, trivial, hstage, fun _ => hqueue⟩

theorem working_disconnectArm :
    (Handler.within ClientView.handler clientSucceeds).Always (fun op _ => Working op)
      (fun o v' => o = some () ∧ Resting v') (Client.disconnectArm s) v := by
  rw [Client.disconnectArm_eq]
  refine always_observe trivial (always_writePage trivial (always_observe trivial ?_))
  refine (performed_postAndPoll (v := v.announcing .complete) (.inr ⟨_, rfl⟩)).bind ?_
  rintro _ v' ⟨rfl, hstage, -⟩
  refine ⟨trivial, ?_⟩
  intro choice r v₁ hr
  obtain ⟨hg, hr⟩ := Handler.within_eq_some.mp hr
  cases choice <;> cases hr
  have hok : CRet.isOk r = true := hg
  simp only [rdmaCall_of_isOk hok, Task.unwrap, Prog.ret_bind]
  exact ⟨rfl, hstage⟩

theorem carried_arm (hv : Resting v) (hc : c ≠ .disconnect) (hcarries : s.Carries c) :
    (Handler.within ClientView.handler clientSucceeds).Always (fun op _ => Working op)
      (Carried v.queue) (Client.arm s c) v := by
  cases c with
  | send loc rem =>
    rw [Client.arm]
    split
    next hsize => exact working_transferArm Client.isTransfer_write hv (hcarries hsize)
    · exact ⟨hv, fun _ => rfl⟩
  | recv loc rem =>
    rw [Client.arm]
    split
    next hsize => exact working_transferArm Client.isTransfer_read hv (hcarries hsize)
    · exact ⟨hv, fun _ => rfl⟩
  | complete reqId => exact working_completeArm hcarries
  | disconnect => exact absurd rfl hc

/-- Between two commands. -/
structure Ready (s : Session) (v : ClientView) : Prop where
  /-- The page is not in use. -/
  resting : Resting v
  /-- What is left of the queue is carried out. -/
  carries : ∀ c ∈ untilDisconnect v.queue, s.Carries c

theorem working_arm (hv : Resting v)
    (hcarries : ∀ d ∈ untilDisconnect (c :: v.queue), s.Carries d) :
    (Handler.within ClientView.handler clientSucceeds).Always (fun op _ => Working op)
      (fun o v' => o.elim (Ready s v') fun _ => Resting v') (Client.arm s c) v := by
  by_cases hc : c = .disconnect
  · subst hc
    refine working_disconnectArm.mono ?_
    rintro _ v' ⟨rfl, hrest⟩
    exact hrest
  · rw [untilDisconnect, if_neg hc, List.forall_mem_cons] at hcarries
    refine (carried_arm hv hc hcarries.1).mono ?_
    rintro o v' ⟨hrest, hqueue⟩
    cases o with
    | none => exact ⟨hrest, hqueue rfl ▸ hcarries.2⟩
    | some _ => exact hrest

/-- **The worker** does not abort as long as its calls succeed and it can carry out its commands. -/
theorem always_worker_working {cmds : List Command}
    (hcarries : ∀ c ∈ untilDisconnect cmds, s.Carries c) (n : ℕ) :
    (Handler.within ClientView.handler clientSucceeds).Always (fun op _ => Working op)
      (fun _ => Resting) (Client.worker s n) (.init cmds) := by
  have hinit : Ready s (.init cmds) := ⟨rfl, hcarries⟩
  refine (always_worker n hinit (fun _ _ => trivial) ?_ fun _ hv _ => hv.resting).mono ?_
  · intro v c cs hv hqueue
    exact working_arm hv.resting (hqueue ▸ hv.carries)
  · intro o v hv
    cases o with
    | none => exact hv.resting
    | some _ => exact hv

end Worker

/-! ### The handler -/

/-- The completion of a write with immediate has been polled and the page read, and no notification
can be decoded. -/
def Unreadable (stage : RecvStage) : Prop :=
  ∃ wc page, stage = .read wc page ∧ ∀ (h : (ntohl wc.immData).toNat ≤ cpuBufferBaseSize) n,
    Notification.deserialize (page.slice (ntohl wc.immData).toNat h) ≠ .ok n

/-- The operations of a handler. It aborts only over an unreadable page. -/
def ReadRule (op : Op) (v : ServerView) : Prop :=
  match op with
  | .panic _ => Unreadable v.stage
  | .ibvPostRecv _ | .ibvPollCq .recv | .readPage _ | .observe _ | .rdmaDisconnect => True
  | .lockReqs | .putReqs _ | .unlockReqs => True
  | _ => False

section Handler

variable {v : ServerView} {cpuMr : IbvMr} {cpuBuffer : MemBuffer}
  {g : (op : Op) → ServerView → ServerView.Choice → Bool}

theorem reads_decodePage {wc : IbvWc} {page : Page} (hstage : v.stage = .read wc page) :
    (Handler.within ServerView.handler g).Always ReadRule
      (fun r v' => ∀ e, r = .error e → Unreadable v'.stage) (Server.decodePage page wc) v := by
  rw [Server.decodePage]
  split
  next hle =>
    intro e he
    refine ⟨wc, page, hstage, fun _ n hn => ?_⟩
    rw [hn] at he
    cases he
  next hle => exact ⟨⟨wc, page, hstage, fun h => absurd h hle⟩, fun _ r => r.elim⟩

/-- **`handle_notification`** fails only over an unreadable page, as long as its calls succeed. -/
theorem reads_handleNotification :
    (Handler.within ServerView.handler serverSucceeds).Always ReadRule
      (fun r v' => ∀ e, r = .error e → Unreadable v'.stage)
      (Server.handleNotification cpuMr cpuBuffer).run v := by
  rw [Server.run_handleNotification]
  refine ⟨trivial, ?_⟩
  intro choice r v₁ hr
  obtain ⟨hg, hr⟩ := Handler.within_eq_some.mp hr
  cases choice <;> cases hr
  have hok : CRet.isOk r = true := hg
  simp only [rdmaCall_of_isOk hok]
  refine ⟨trivial, ?_⟩
  intro choice p v₂ hp
  obtain ⟨hg, hp⟩ := Handler.within_eq_some.mp hp
  cases choice <;> cases hp
  cases p with
  | entry wc =>
    simp only [compResult_entry_of_success (beq_iff_eq.mp hg)]
    by_cases hop : wc.opcode = ibvWcRecvRdmaWithImm
    · simp only [hop, if_true]
      refine ⟨trivial, ?_⟩
      intro choice page v₃ hpage
      obtain ⟨-, hpage⟩ := Handler.within_eq_some.mp hpage
      cases choice <;> cases hpage
      exact reads_decodePage rfl
    · simp only [hop, if_false]
      intro e he
      cases he
  | _ => exact absurd hg Bool.false_ne_true

theorem reads_handlerTail (n : Notification) :
    (Handler.within ServerView.handler g).Always ReadRule (fun _ _ => True)
      (Server.handlerTail n) v := by
  have honly : (Server.handlerTail n).Only fun op => ∀ v, ReadRule op v :=
    Server.only_handlerTail n (fun _ => trivial) (fun _ _ => trivial) (fun _ => trivial)
      (fun _ _ => trivial) fun _ => trivial
  exact Handler.Always.of_only honly trivial (fun _ v h _ => h v) fun _ _ _ _ _ _ _ _ => trivial

/-- **The handler** aborts only over an unreadable page, as long as its calls succeed. -/
theorem always_handler_reading (cpuMr : IbvMr) (cpuBuffer : MemBuffer) (n : ℕ) :
    (Handler.within ServerView.handler serverSucceeds).Always ReadRule (fun _ _ => True)
      (Server.handler cpuMr cpuBuffer n) v := by
  rw [Server.handler_eq]
  refine (Handler.Always.loop (J := fun _ => True) (R := fun _ _ => True) ?_ n trivial).bind ?_
  · intro v _
    rw [Server.handlerIteration_eq]
    refine reads_handleNotification.bind ?_
    intro r v₁ hr
    cases r with
    | error e => exact ⟨hr e rfl, fun _ r => r.elim⟩
    | ok n =>
      refine (reads_handlerTail n).mono ?_
      intro o v' _
      cases o <;> trivial
  · intro o v₁ _
    cases o with
    | none => trivial
    | some _ =>
      refine ⟨trivial, ?_⟩
      intro choice r v₂ hr
      obtain ⟨hg, hr⟩ := Handler.within_eq_some.mp hr
      cases choice <;> cases hr
      have hok : CRet.isOk r = true := hg
      simp only [rdmaCall_of_isOk hok, Task.unwrap, Prog.ret_bind]
      trivial

end Handler

/-! ### The two together -/

/-- No request has failed, and no receive. -/
structure Wire.Clean (w : Wire) : Prop where
  /-- The requests that have ended. -/
  sq : ∀ f ∈ w.sq, ∀ status, f.status = some status → status = ibvWcSuccess
  /-- The receives that have been consumed. -/
  recvCq : ∀ wc ∈ w.recvCq, wc.status = ibvWcSuccess

/-- How many bytes are still to land, and how many requests to end. -/
def Wire.remaining (w : Wire) : ℕ :=
  (w.sq.map fun f => if f.status = none then cpuBufferBaseSize - f.placed + 1 else 0).sum

section Connection

variable {v : ClientView} {w w' : Wire}

theorem Wire.Clean.client {op : Op} {choice : ClientView.Choice} (h : w.Clean)
    (hw : w.client op choice = some w') : w'.Clean := by
  unfold Wire.client at hw
  split at hw
  · cases hw; exact ⟨h.sq, h.recvCq⟩
  · cases hw
    split
    · refine ⟨?_, h.recvCq⟩
      intro f hf status hstatus
      rcases List.mem_append.mp hf with hf | hf
      · exact h.sq f hf status hstatus
      · rw [List.mem_singleton.mp hf] at hstatus
        cases hstatus
    · exact h
  · split at hw
    next f rest hsq =>
      split at hw <;> cases hw
      exact ⟨fun g hg => h.sq g (hsq ▸ List.mem_cons_of_mem f hg), h.recvCq⟩
    · cases hw
  · cases hw; exact h

theorem Wire.Clean.server {op : Op} {choice : ServerView.Choice} (h : w.Clean)
    (hw : w.server op choice = some w') : w'.Clean := by
  unfold Wire.server at hw
  split at hw
  · cases hw; split <;> exact ⟨h.sq, h.recvCq⟩
  · split at hw
    next wc rest hcq =>
      split at hw <;> cases hw
      exact ⟨h.sq, fun wc' hwc' => h.recvCq wc' (hcq ▸ List.mem_cons_of_mem wc hwc')⟩
    · cases hw
  · cases hw
  · cases hw; exact h

theorem Wire.Clean.place {n : ℕ} (h : w.Clean) (hc : ClientSide v w) (hn : 0 < n)
    (hw : w.place n = some w') : w'.Clean ∧ w'.remaining < w.remaining := by
  unfold Wire.place at hw
  split at hw
  next before f after ho =>
    obtain ⟨⟨hsq, rfl, rfl, hstatus⟩, -⟩ := hc.oldest ho
    split at hw
    next hop =>
      cases hw
      refine ⟨⟨by simp [hstatus], h.recvCq⟩, ?_⟩
      simp only [Wire.remaining, hsq, List.nil_append, List.map_cons, List.map_nil, hstatus,
        List.sum_cons, List.sum_nil, if_true]
      omega
    · cases hw
  · cases hw

theorem Wire.Clean.finish (h : w.Clean) (hc : ClientSide v w) (hw : w.finish = some w') :
    w'.Clean ∧ w'.remaining < w.remaining := by
  unfold Wire.finish at hw
  split at hw
  next before f after ho =>
    obtain ⟨⟨hsq, rfl, rfl, hstatus⟩, -⟩ := hc.oldest ho
    split at hw
    · split at hw
      next recvs hrecvs =>
        cases hw
        refine ⟨⟨by simp, ?_⟩, by simp [Wire.remaining, hsq, hstatus]⟩
        intro wc hwc
        rcases List.mem_append.mp hwc with hwc | hwc
        · exact h.recvCq wc hwc
        · rw [List.mem_singleton.mp hwc]
      · cases hw
    · cases hw
      exact ⟨⟨by simp, h.recvCq⟩, by simp [Wire.remaining, hsq, hstatus]⟩
  · cases hw

end Connection

/-- What holds throughout. -/
structure Delivering (cmds : List Command) (n m : ℕ) (s : Sys) : Prop where
  /-- The two ends, and what is between them. -/
  linked : Linked cmds true s
  /-- Each end does what it does alone. -/
  ending : Ending cmds n m s
  /-- Nothing has failed. -/
  clean : s.wire.Clean
  /-- The worker does not abort. -/
  worker : (Handler.within ClientView.handler clientSucceeds).Always (fun op _ => Working op)
    (fun _ => Resting) s.client.prog s.client.world
  /-- Nor does the handler, unless it cannot read its page. -/
  handler : (Handler.within ServerView.handler serverSucceeds).Always ReadRule (fun _ _ => True)
    s.server.prog s.server.world

/-- `s'` is closer to the end than `s`: an operation of the worker, an operation of the handler,
and bytes that land or a request that ends, in this order. -/
def Sys.Nearer : Sys → Sys → Prop :=
  InvImage (Prod.Lex Prog.Continues (Prod.Lex Prog.Continues (· < ·)))
    fun s => (s.client.prog, s.server.prog, s.wire.remaining)

theorem Sys.wellFounded_nearer : WellFounded Sys.Nearer :=
  InvImage.wf _ (Prog.wellFounded_continues.prod_lex
    (Prog.wellFounded_continues.prod_lex wellFounded_lt))

section Run

variable {cmds : List Command} {n m : ℕ} {s s' : Sys} {l : Sys.Label}

theorem callsSucceed_of_clientSucceeds {op : Op} {v : ClientView} {choice : ClientView.Choice}
    (h : clientSucceeds op v choice = true) : Sys.callsSucceed op v choice = true := by
  unfold clientSucceeds at h
  split at h
  · rfl
  · exact h

theorem Sys.deliversAll_of_delivers (h : s.delivers l = true) :
    s.clientPermits Sys.callsSucceed l = true ∧ s.undisturbed l = true := by
  cases l with
  | client choice =>
    exact ⟨Handler.permits_mono (fun _ _ _ => callsSucceed_of_clientSucceeds) h, rfl⟩
  | place n => exact ⟨rfl, ((Bool.and_eq_true _ _).mp h).2⟩
  | fail status => exact absurd h Bool.false_ne_true
  | _ => exact ⟨rfl, rfl⟩

/-- **One step** keeps the invariant and comes closer to the end. -/
theorem delivering_step (h : Delivering cmds n m s) (hg : s.delivers l = true)
    (hs : s.step l = some s') : Delivering cmds n m s' ∧ Sys.Nearer s' s := by
  obtain ⟨hcalls, hundisturbed⟩ := Sys.deliversAll_of_delivers hg
  have hlinked : Linked cmds true s' := linked_step h.linked hundisturbed
    (Sys.clientPermits_mono (fun _ _ _ => transfersSucceed_of_callsSucceed) hcalls)
    (fun _ => hcalls) hs
  have hending : Ending cmds n m s' := h.ending.step hs
  cases l with
  | client choice =>
    obtain ⟨op, k, r, v', wire, hprog, hv, hw, rfl⟩ := Sys.step_client hs
    have hworker := h.worker
    rw [hprog] at hworker
    simp only [Sys.delivers, Handler.permits, hprog] at hg
    have hworker' := hworker.2 choice r v' (Handler.within_eq_some.mpr ⟨hg, hv⟩)
    exact ⟨⟨hlinked, hending, h.clean.client hw, hworker', h.handler⟩,
      Prod.Lex.left _ _ ⟨op, k, r, hprog, rfl⟩⟩
  | server choice =>
    obtain ⟨op, k, r, v', wire, hprog, hv, hw, rfl⟩ := Sys.step_server hs
    have hhandler := h.handler
    rw [hprog] at hhandler
    simp only [Sys.delivers, Handler.permits, hprog] at hg
    have hhandler' := hhandler.2 choice r v' (Handler.within_eq_some.mpr ⟨hg, hv⟩)
    exact ⟨⟨hlinked, hending, h.clean.server hw, h.worker, hhandler'⟩,
      Prod.Lex.right _ (Prod.Lex.left _ _ ⟨op, k, r, hprog, rfl⟩)⟩
  | read =>
    obtain ⟨buf, k, hprog, rfl⟩ := Sys.step_read hs
    have hhandler := h.handler
    rw [hprog] at hhandler
    have hhandler' := hhandler.2 (.page s.wire.serverPage) _ _
      (Handler.within_eq_some.mpr ⟨rfl, rfl⟩)
    exact ⟨⟨hlinked, hending, h.clean, h.worker, hhandler'⟩,
      Prod.Lex.right _ (Prod.Lex.left _ _ ⟨_, k, _, hprog, rfl⟩)⟩
  | place j =>
    obtain ⟨w', hw, rfl⟩ := Option.map_eq_some_iff.mp hs
    have hj : 0 < j := of_decide_eq_true ((Bool.and_eq_true _ _).mp hg).1
    obtain ⟨hclean, hlt⟩ := h.clean.place h.linked.clientSide hj hw
    exact ⟨⟨hlinked, hending, hclean, h.worker, h.handler⟩,
      Prod.Lex.right _ (Prod.Lex.right _ hlt)⟩
  | finish =>
    obtain ⟨w', hw, rfl⟩ := Option.map_eq_some_iff.mp hs
    obtain ⟨hclean, hlt⟩ := h.clean.finish h.linked.clientSide hw
    exact ⟨⟨hlinked, hending, hclean, h.worker, h.handler⟩,
      Prod.Lex.right _ (Prod.Lex.right _ hlt)⟩
  | fail status => exact absurd hg Bool.false_ne_true

/-! ### Where a run cannot go on -/

theorem not_final_client {op : Op} {k : op.Ans → Task (Option Unit)} (choice : ClientView.Choice)
    (hprog : s.client.prog = .vis op k) (hg : clientSucceeds op s.client.world choice = true)
    (hw : ∃ w', s.wire.client op choice = some w')
    (hv : ∃ res, ClientView.handler op s.client.world choice = some res) :
    ¬ Final Sys.step Sys.delivers s := by
  obtain ⟨w', hw⟩ := hw
  obtain ⟨res, hv⟩ := hv
  intro hf
  have hnone := hf (.client choice) (by simp only [Sys.delivers, Handler.permits, hprog, hg])
  simp [Sys.step, hprog, Prog.next?, hw, Handler.step, hv] at hnone

theorem not_final_server {op : Op} {k : op.Ans → Task (Option Unit)} (choice : ServerView.Choice)
    (hprog : s.server.prog = .vis op k) (hg : serverSucceeds op s.server.world choice = true)
    (hw : ∃ w', s.wire.server op choice = some w')
    (hv : ∃ res, ServerView.handler op s.server.world choice = some res) :
    ¬ Final Sys.step Sys.delivers s := by
  obtain ⟨w', hw⟩ := hw
  obtain ⟨res, hv⟩ := hv
  intro hf
  have hnone := hf (.server choice) (by simp only [Sys.delivers, Handler.permits, hprog, hg])
  simp [Sys.step, hprog, Prog.next?, hw, Handler.step, hv] at hnone

/-- A worker that cannot go on waits for its own completion. -/
theorem pollSend_of_final {op : Op} {k : op.Ans → Task (Option Unit)}
    (hf : Final Sys.step Sys.delivers s) (hprog : s.client.prog = .vis op k) (hop : Working op) :
    op = .ibvPollCq .send := by
  cases op with
  | recvCmd =>
    refine absurd hf (not_final_client .go hprog rfl ⟨_, rfl⟩ ?_)
    cases hqueue : s.client.world.queue with
    | nil => exact ⟨(none, s.client.world), by simp [ClientView.handler, hqueue]⟩
    | cons c cs =>
      exact ⟨(some c, s.client.world.took cs), by simp [ClientView.handler, hqueue]⟩
  | ibvPollCq cq =>
    cases cq with
    | send => rfl
    | recv => exact hop.elim
  | ibvPostSend wr | rdmaDisconnect =>
    exact absurd hf (not_final_client (.ret (.ret 0 0)) hprog rfl ⟨_, rfl⟩ ⟨_, rfl⟩)
  | writePage buf bytes | observe o | lockReqs | putReqs reqs | unlockReqs =>
    exact absurd hf (not_final_client .go hprog rfl ⟨_, rfl⟩ ⟨_, rfl⟩)
  | _ => exact hop.elim

/-- A handler that cannot go on waits for a completion that is not there. -/
theorem pollRecv_of_final {op : Op} {k : op.Ans → Task (Option Unit)}
    (hf : Final Sys.step Sys.delivers s) (hclean : s.wire.Clean)
    (hprog : s.server.prog = .vis op k) (hop : ReadRule op s.server.world)
    (hread : ¬ Unreadable s.server.world.stage) :
    op = .ibvPollCq .recv ∧ s.wire.recvCq = [] := by
  cases op with
  | panic msg => exact absurd hop hread
  | readPage buf =>
    have hnone := hf .read rfl
    simp [Sys.step, hprog, Handler.step, ServerView.handler] at hnone
  | ibvPollCq cq =>
    cases cq with
    | send => exact hop.elim
    | recv =>
      cases hcq : s.wire.recvCq with
      | nil => exact ⟨rfl, rfl⟩
      | cons wc rest =>
        have hwc : wc.status = ibvWcSuccess := hclean.recvCq wc (hcq ▸ List.mem_cons_self)
        refine absurd hf (not_final_server (.polled (.entry wc)) hprog ?_ ?_ ⟨_, rfl⟩)
        · simp [serverSucceeds, hwc]
        · exact ⟨{ s.wire with recvCq := rest }, by simp [Wire.server, hcq]⟩
  | ibvPostRecv wr | rdmaDisconnect =>
    exact absurd hf (not_final_server (.ret (.ret 0 0)) hprog rfl ⟨_, rfl⟩ ⟨_, rfl⟩)
  | observe o | lockReqs | putReqs reqs | unlockReqs =>
    exact absurd hf (not_final_server .go hprog rfl ⟨_, rfl⟩ ⟨_, rfl⟩)
  | _ => exact hop.elim

/-- What has been announced to the handler can be read. -/
theorem not_unreadable {v : ServerView} {w : Wire} {pending : List Notification}
    (h : ServerSide v w pending) : ¬ Unreadable v.stage := by
  rintro ⟨wc, page, hstage, hnone⟩
  simp only [ServerSide, hstage] at h
  obtain ⟨-, -, note, -, hann, hpage⟩ := h
  obtain ⟨hle, hslice⟩ := hann.slice_eq hpage
  refine hnone hle note ?_
  rw [hslice, Notification.deserialize_serialize hpage.1]

/-- The handler waits for a notification, and its receive is posted. -/
structure Waits (s : Sys) : Prop where
  /-- It polls. -/
  polls : ∃ k, s.server.prog = Task.call (.ibvPollCq .recv) k
  /-- The receive. -/
  recvs : s.wire.recvs = 1

/-- A handler that cannot go on has returned, or it waits and everything that has been announced to
it has been decoded. -/
theorem server_of_final (h : Delivering cmds n m s) (hf : Final Sys.step Sys.delivers s)
    (hm : (notices cmds).length < m) :
    (s.server.prog = .ret (some ()) ∧ Closed s.server.world) ∨
      (Waits s ∧ (∃ k, Counted k s.server.world) ∧
        s.decoded ++ flying s.client.world s.wire = s.wrote) := by
  obtain ⟨pending, hside, -, hall⟩ := h.linked.serverSide
  have hending := h.ending.server
  have hread := h.handler
  have hrule := h.linked.server
  cases hprog : s.server.prog with
  | ret o =>
    rw [hprog] at hending
    cases o with
    | some _ => exact .inl ⟨rfl, hending⟩
    | none =>
      -- The loop has not been unrolled far enough.
      have hcounted : Counted m s.server.world := hending
      have hlength := (decoded_prefix_notices h.linked h.ending).length_le
      rw [Sys.decoded, hcounted.length] at hlength
      omega
  | vis op k =>
    rw [hprog] at hending hread hrule
    obtain ⟨rfl, hcq⟩ := pollRecv_of_final hf h.clean hprog hread.head (not_unreadable hside)
    have hstage : s.server.world.stage = .waiting := hrule.head.2
    simp only [ServerSide, hstage, hcq] at hside
    rcases hside with ⟨hrecvs, -, rfl⟩ | ⟨-, wc, note, hone, -⟩
    · refine .inr ⟨⟨⟨k, hprog⟩, hrecvs⟩, hending.head rfl, ?_⟩
      rw [← hall rfl, List.append_nil]
    · cases hone

/-- Once the handler has returned, nothing is on its way any more. -/
theorem flying_of_closed (h : Delivering cmds n m s) (hclosed : Closed s.server.world) :
    flying s.client.world s.wire = [] := by
  obtain ⟨pending, -, -, hall⟩ := h.linked.serverSide
  have hread := readAll_of_closed h.linked h.ending hclosed
  have hlength := h.ending.noted.wrote.length_le
  rw [← Sys.wrote, ← hall rfl, hread.decoded, List.length_append, List.length_append] at hlength
  exact List.length_eq_zero_iff.mp (by omega)

/-- A worker that cannot go on has returned: the request it would wait for is carried out as soon as
a receive is posted, and the handler posts one. -/
theorem client_of_final (h : Delivering cmds n m s) (hf : Final Sys.step Sys.delivers s)
    (hn : cmds.length < n) (hm : (notices cmds).length < m) :
    s.client.prog = .ret (some ()) := by
  have hending := h.ending.client
  have hworking := h.worker
  have hrule := h.linked.client
  cases hprog : s.client.prog with
  | ret o =>
    rw [hprog] at hending
    cases o with
    | some _ => rfl
    | none =>
      -- The loop has not been unrolled far enough.
      obtain ⟨⟨past, hlength, hcmds, -⟩, -⟩ : Announced cmds n s.client.world := hending
      rw [hcmds, List.length_append] at hn
      omega
  | vis op k =>
    exfalso
    rw [hprog] at hworking hrule
    obtain rfl := pollSend_of_final hf hprog hworking.head
    have hone : s.client.world.outstanding = [s.client.world.taken] := hrule.head.2.1
    obtain ⟨f, hsq⟩ : ∃ f, s.wire.sq = [f] := by
      refine List.length_eq_one_iff.mp ?_
      rw [h.linked.clientSide.1, hone, List.length_singleton]
    have hstatus : f.status = none := by
      cases hstatus : f.status with
      | none => rfl
      | some status =>
        have hok := h.clean.sq f (by simp [hsq]) status hstatus
        refine absurd hf (not_final_client (.polled (.entry ⟨ibvWcSuccess, 0, 0⟩)) hprog rfl ?_ ?_)
        · exact ⟨{ s.wire with sq := [] }, by simp [Wire.client, hsq, hstatus, hok]⟩
        · exact ⟨(.entry ⟨ibvWcSuccess, 0, 0⟩, s.client.world.completed s.client.world.taken []
            ⟨ibvWcSuccess, 0, 0⟩), by simp [ClientView.handler, hone]⟩
    have holdest : Wire.oldest s.wire.sq = some ([], f, []) := by
      rw [hsq, Wire.oldest, hstatus]
    have hnone := hf .finish rfl
    simp only [Sys.step, Option.map_eq_none_iff, Wire.finish, holdest] at hnone
    obtain ⟨-, ⟨-, hne⟩ | ⟨note, hstage, hop, -⟩⟩ := h.linked.clientSide.oldest holdest
    · simp [hne] at hnone
    · rcases server_of_final h hf hm with ⟨-, hclosed⟩ | ⟨hwaits, -⟩
      · have hflying := flying_of_closed h hclosed
        simp [flying, hstage, hsq, hstatus] at hflying
      · simp [hop, hwaits.recvs] at hnone

end Run

/-! ### The end -/

/-- Everything has been delivered, and neither side has anything left to do. -/
structure AtRest (cmds : List Command) (s : Sys) : Prop where
  /-- The worker has returned. -/
  worker : s.client.prog = .ret (some ())
  /-- The handler has decoded what the queue announces, once and in order. -/
  decoded : s.decoded = notices cmds
  /-- It has returned if it has been told to, and otherwise it waits for the next notification. -/
  handler : if .disconnect ∈ cmds then s.server.prog = .ret (some ()) else Waits s
  /-- The two sides report the same requests: those that survive in the table. -/
  reported : ∀ reqId, (s.client.world.isComplete reqId = true ↔
      Survives 1023 (requested cmds) reqId) ∧
    (s.server.world.isComplete reqId = true ↔ Survives 1023 (requested cmds) reqId)

section Results

variable {cmds : List Command} {n m : ℕ} {s : Sys}

/-- The end is announced by a disconnect. -/
theorem complete_mem_notices : .complete ∈ notices cmds ↔ .disconnect ∈ cmds := by
  obtain ⟨past, hgoes, ⟨hcmds, huntil⟩ | ⟨rest, hcmds, huntil⟩⟩ := untilDisconnect_cases cmds
  · refine iff_of_false ?_ (hcmds ▸ hgoes)
    rw [notices, huntil]
    intro hmem
    obtain ⟨c, hc, hnotice⟩ := List.mem_filterMap.mp hmem
    exact Command.done_notice (fun h => hgoes (h ▸ hc)) hnotice (by decide)
  · refine iff_of_true ?_ (by simp [hcmds])
    rw [notices, huntil, List.filterMap_append]
    exact List.mem_append_right _ List.mem_cons_self

theorem atRest_of_final (h : Delivering cmds n m s) (hf : Final Sys.step Sys.delivers s)
    (hn : cmds.length < n) (hm : (notices cmds).length < m) : AtRest cmds s := by
  have hreturned := client_of_final h hf hn hm
  have hover : Over cmds s.client.world := by
    have hending := h.ending.client
    rw [hreturned] at hending
    exact hending
  have hrest : s.client.world.stage = .idle := by
    have hworker := h.worker
    rw [hreturned] at hworker
    exact hworker
  have hclient (reqId : ReqId) : s.client.world.isComplete reqId = true ↔
      Survives 1023 (requested cmds) reqId := by
    rw [ClientView.isComplete, hover.locked, hover.reqs, Bool.not_false, Bool.true_and,
      CompletionReqs.isReqComplete_recordAll (by decide)]
  have hserver (hlocked : s.server.world.locked = false)
      (hreqs : s.server.world.reqs = (CompletionReqs.new 1024).recordAll (requested cmds))
      (reqId : ReqId) : s.server.world.isComplete reqId = true ↔
        Survives 1023 (requested cmds) reqId := by
    rw [ServerView.isComplete, hlocked, hreqs, Bool.not_false, Bool.true_and,
      CompletionReqs.isReqComplete_recordAll (by decide)]
  rcases server_of_final h hf hm with ⟨hprog, hclosed⟩ | ⟨hwaits, ⟨k, hcounted⟩, hall⟩
  · have hread := readAll_of_closed h.linked h.ending hclosed
    have hdone : .disconnect ∈ cmds := complete_mem_notices.mp (hread.decoded ▸ hread.done)
    refine ⟨hreturned, hread.decoded, ?_, fun reqId => ⟨hclient reqId, ?_⟩⟩
    · rwa [if_pos hdone]
    · exact hserver hread.locked hread.reqs reqId
  · have hdecoded : s.decoded = notices cmds := by
      have hflying : flying s.client.world s.wire = [] := by
        rw [flying, hrest]
      rw [hflying, List.append_nil] at hall
      exact hall.trans hover.wrote
    have hgoes : .disconnect ∉ cmds := by
      intro hmem
      rw [← complete_mem_notices, ← hdecoded] at hmem
      exact hcounted.goes _ hmem (by decide)
    refine ⟨hreturned, hdecoded, ?_, fun reqId => ⟨hclient reqId, ?_⟩⟩
    · rwa [if_neg hgoes]
    · refine hserver hcounted.locked ?_ reqId
      rw [hcounted.reqs, ← Sys.decoded, hdecoded, notices, Command.filterMap_reqId_notice,
        requested]

theorem delivering_init {session : Session} (cpuMr : IbvMr) (cpuBuffer : MemBuffer)
    (clientPage serverPage : Page) (hcarries : ∀ c ∈ untilDisconnect cmds, session.Carries c) :
    Delivering cmds n m (.init session cmds n cpuMr cpuBuffer m clientPage serverPage) :=
  ⟨linked_init session n cpuMr cpuBuffer m clientPage serverPage,
    ending_init session cmds n cpuMr cpuBuffer m clientPage serverPage,
    ⟨by simp [Sys.init], by simp [Sys.init]⟩, always_worker_working hcarries n,
    always_handler_reading cpuMr cpuBuffer m⟩

/-- From wherever the invariant holds, every run comes to rest. -/
theorem Delivering.leads (h : Delivering cmds n m s) (hn : cmds.length < n)
    (hm : (notices cmds).length < m) : Leads Sys.step Sys.delivers (AtRest cmds) s := by
  refine Leads.of_wellFounded (I := Delivering cmds n m) Sys.wellFounded_nearer ?_ ?_ h
  · intro s l s' hs hg hstep
    exact delivering_step hs hg hstep
  · intro s hs hf
    exact atRest_of_final hs hf hn hm

/-- **Every run comes to rest.** A queue whose commands the worker carries out, up to its first
disconnect; the two loops unrolled further than there are commands; any content of the two pages. In
every order in which the worker, the handler and the connection can take their steps, as long as all
calls succeed and no bytes land on an unread notification, the run comes to an end, and there
everything has been delivered. -/
theorem leads_atRest {session : Session} (cpuMr : IbvMr) (cpuBuffer : MemBuffer)
    (clientPage serverPage : Page) (hcarries : ∀ c ∈ untilDisconnect cmds, session.Carries c)
    (hn : cmds.length < n) (hm : (notices cmds).length < m) :
    Leads Sys.step Sys.delivers (AtRest cmds)
      (.init session cmds n cpuMr cpuBuffer m clientPage serverPage) := by
  have hinit : Delivering cmds n m
      (.init session cmds n cpuMr cpuBuffer m clientPage serverPage) :=
    delivering_init cpuMr cpuBuffer clientPage serverPage hcarries
  exact hinit.leads hn hm

/-- A transfer, a request and the end. -/
theorem leads_atRest_push : Leads Sys.step Sys.delivers (AtRest pushAndComplete)
    (.init oneBufferSession pushAndComplete 4 ⟨8192, cpuBufferBaseSize, 11, 11⟩ ⟨8192⟩ 3 .zero
      .zero) := by
  refine leads_atRest _ _ _ _ ?_ (by decide) (by decide)
  intro c hc
  have hmem : c ∈ pushAndComplete := hc
  rw [pushAndComplete] at hmem
  simp only [List.mem_cons, List.not_mem_nil, or_false] at hmem
  rcases hmem with rfl | rfl | rfl
  · exact fun _ => ⟨⟨131072, 12⟩, ⟨65536, 256, 2, 2⟩, ⟨65536, 256⟩, rfl, rfl, by decide, by decide⟩
  · exact (Notification.serializedSize_some 0 [1]).trans_le (by decide)
  · trivial

end Results

end RdmaTransport
