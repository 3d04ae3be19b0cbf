import RdmaTransport.Vllm.Server

/-!
# What a peer can do to the handler

A connected peer decides what the handler's receives complete with: the status, the opcode, the
immediate, and the bytes that are in the page by then. `Peer` is the environment that plays a
finite list of such events and otherwise does what is asked of it.

The handler unwraps what `handle_notification` returns, and `handle_notification` slices the page
at whatever the immediate says. So the first event that is failed or malformed ends the task
before its disconnect. `inControl_iff` makes this exact: the handler stays in control of just those
lists that have no such event before the peer says that it is done.

## Main results

* `handlerRun_of_none`, `handlerRun_of_done`, `handlerRun_of_more` — the run, event by event
* `reqs_handlerRun_concat` — a failed or malformed event records nothing
* `inControl_iff` — when the handler stays in control
-/

namespace RdmaTransport

open Interaction

namespace Server

/-! ### Events -/

/-- A receive completion, and the page as it is when the handler reads it. -/
structure RecvEvent where
  /-- The completion. -/
  wc : IbvWc
  /-- The page. -/
  page : Page

namespace RecvEvent

/-- The notification an event carries: none when it failed, or when its immediate is no length of
a prefix of the page that decodes. An event that is no write with immediate carries the default. -/
def notification? (e : RecvEvent) : Option Notification :=
  if e.wc.status ≠ ibvWcSuccess then none
  else if e.wc.opcode = ibvWcRecvRdmaWithImm then
    if h : (ntohl e.wc.immData).toNat ≤ cpuBufferBaseSize then
      (Notification.deserialize (e.page.slice _ h)).toOption
    else none
  else some .zero

/-- Neither failed nor malformed. -/
def WellFormed (e : RecvEvent) : Prop := e.notification?.isSome = true

instance (e : RecvEvent) : Decidable e.WellFormed := inferInstanceAs (Decidable (_ = true))

/-- The event says that the client is done. -/
def IsDone (e : RecvEvent) : Prop := ∃ n ∈ e.notification?, n.done > 0

instance (e : RecvEvent) : Decidable e.IsDone :=
  decidable_of_iff (e.notification?.any (fun n => decide (n.done > 0)) = true) <| by
    simp [IsDone, Option.any_eq_true]

end RecvEvent

/-- The events a handler gets to see: those up to the first that says that the client is done. -/
def upToDone : List RecvEvent → List RecvEvent
  | [] => []
  | e :: es => if e.IsDone then [e] else e :: upToDone es

/-! ### The environment -/

/-- A connected peer and what the handler shares with the rest of the server. -/
structure Peer where
  /-- What the posted receives are still to complete with. -/
  events : List RecvEvent
  /-- The page now. -/
  page : Page
  /-- The shared table. -/
  reqs : CompletionReqs
  /-- What `rdma_disconnect` will return. -/
  discRet : CRet
  /-- Whether it has been called on this connection. -/
  disconnected : Bool

/-- How the environment answers. A poll stays in its loop when there is no event left. -/
def Peer.answer : (op : Op) → Peer → Option (op.Ans × Peer)
  | .ibvPostRecv _, p => some (.ret 0 0, p)
  | .ibvPollCq .recv, p =>
    match p.events with
    | [] => none
    | e :: es => some (.entry e.wc, { p with events := es, page := e.page })
  | .readPage _, p => some (p.page, p)
  | .lockReqs, p => some (p.reqs, p)
  | .putReqs reqs, p => some ((), { p with reqs := reqs })
  | .unlockReqs, p => some ((), p)
  | .observe _, p => some ((), p)
  | .rdmaDisconnect, p => some (p.discRet, { p with disconnected := true })
  | _, _ => none

variable (cpuMr : IbvMr) (cpuBuffer : MemBuffer)

/-- The run of the handler for at most `n` iterations of its loop. -/
def handlerRun (n : ℕ) (p : Peer) : Outcome iface Peer (Option Unit) :=
  Prog.interp Peer.answer (handler cpuMr cpuBuffer n) p

/-- The handler stays in control of what the peer does. -/
structure InControl (p : Peer) : Prop where
  /-- No slice is out of range and no unwrap fails: the task never panics. -/
  noPanic : ∀ n msg p', handlerRun cpuMr cpuBuffer n p ≠ .stuck (.panic msg) p'
  /-- The task returns only after `disconnect`. -/
  disconnects : ∀ n p', handlerRun cpuMr cpuBuffer n p = .done (some ()) p' → p'.disconnected = true
  /-- A failed or malformed event leaves the table as the events before it made it. -/
  keepsReqs : ∀ n pre e post, p.events = pre ++ e :: post → ¬ e.WellFormed →
    (handlerRun cpuMr cpuBuffer n { p with events := pre ++ [e] }).state.reqs =
      (handlerRun cpuMr cpuBuffer n { p with events := pre }).state.reqs

/-! ### One event -/

variable {p : Peer} {e : RecvEvent} {es : List RecvEvent} {n : ℕ}

/-- The environment once the event has been polled. -/
def Peer.next (p : Peer) (e : RecvEvent) (es : List RecvEvent) : Peer :=
  { p with events := es, page := e.page }

theorem answer_poll (h : p.events = e :: es) :
    Peer.answer (.ibvPollCq .recv) p = some (.entry e.wc, p.next e es) := by
  simp only [Peer.answer, h]
  rfl

variable {cpuMr cpuBuffer}

theorem interp_handleNotification_nil (h : p.events = []) :
    Prog.interp Peer.answer (handleNotification cpuMr cpuBuffer).run p =
      .stuck (.ibvPollCq .recv) p := by
  have hpoll : Peer.answer (.ibvPollCq .recv) p = none := by simp only [Peer.answer, h]
  rw [run_handleNotification]
  change Prog.interp Peer.answer (.vis (S := iface) (.ibvPollCq .recv) _) p = _
  exact Prog.interp_vis_none hpoll

theorem interp_handleNotification_of_some (h : p.events = e :: es) {m : Notification}
    (hm : e.notification? = some m) :
    Prog.interp Peer.answer (handleNotification cpuMr cpuBuffer).run p =
      .done (.ok m) (p.next e es) := by
  rw [RecvEvent.notification?] at hm
  split at hm
  · cases hm
  next hok =>
    rw [run_handleNotification]
    change Prog.interp Peer.answer (.vis (S := iface) (.ibvPollCq .recv) _) p = _
    rw [Prog.interp_vis_some (answer_poll h)]
    simp only [compResult_entry_of_success (not_not.mp hok)]
    split at hm
    next hop =>
      simp only [hop, if_true]
      change Prog.interp Peer.answer (decodePage e.page e.wc) (p.next e es) = _
      split at hm
      next hle =>
        rw [decodePage, dif_pos hle, Prog.interp_ret]
        cases hdec : Notification.deserialize (e.page.slice _ hle) with
        | error err => rw [hdec] at hm; cases hm
        | ok m' => rw [hdec] at hm; cases hm; rfl
      · cases hm
    next hop =>
      cases hm
      simp only [hop, if_false, Prog.interp_ret]

theorem interp_handleNotification_of_none (cpuMr : IbvMr) (cpuBuffer : MemBuffer)
    (h : p.events = e :: es) (hm : e.notification? = none) :
    (∃ err, Prog.interp Peer.answer (handleNotification cpuMr cpuBuffer).run p =
      .done (.error err) (p.next e es)) ∨
    ∃ msg, Prog.interp Peer.answer (handleNotification cpuMr cpuBuffer).run p =
      .stuck (.panic msg) (p.next e es) := by
  rw [run_handleNotification]
  change (∃ err, Prog.interp Peer.answer (.vis (S := iface) (.ibvPollCq .recv) _) p = _) ∨
    ∃ msg, Prog.interp Peer.answer (.vis (S := iface) (.ibvPollCq .recv) _) p = _
  rw [Prog.interp_vis_some (answer_poll h)]
  rw [RecvEvent.notification?] at hm
  by_cases hok : e.wc.status ≠ ibvWcSuccess
  · obtain ⟨err, herr⟩ := compResult_entry_of_failed "handle_request" "poll_recv_comp" hok
    exact .inl ⟨err, by simp only [herr, Prog.interp_ret]⟩
  · rw [if_neg hok] at hm
    simp only [compResult_entry_of_success (not_not.mp hok)]
    split at hm
    next hop =>
      simp only [hop, if_true]
      change (∃ err, Prog.interp Peer.answer (decodePage e.page e.wc) (p.next e es) = _) ∨
        ∃ msg, Prog.interp Peer.answer (decodePage e.page e.wc) (p.next e es) = _
      rw [decodePage]
      split at hm
      next hle =>
        rw [dif_pos hle]
        cases hdec : Notification.deserialize (e.page.slice _ hle) with
        | error err => exact .inl ⟨_, rfl⟩
        | ok m' => rw [hdec] at hm; cases hm
      next hle =>
        rw [dif_neg hle]
        exact .inr ⟨_, rfl⟩
    · cases hm

/-! ### One iteration -/

/-- The table after a notification that is no done notification. -/
def recordNotification (reqs : CompletionReqs) (m : Notification) : CompletionReqs :=
  m.reqId.elim reqs reqs.record

theorem interp_handlerIteration_nil (h : p.events = []) :
    Prog.interp Peer.answer (handlerIteration cpuMr cpuBuffer) p =
      .stuck (.ibvPollCq .recv) p := by
  rw [handlerIteration_eq, Prog.interp_bind, interp_handleNotification_nil h]

theorem interp_handlerIteration_of_some (h : p.events = e :: es) {m : Notification}
    (hm : e.notification? = some m) :
    Prog.interp Peer.answer (handlerIteration cpuMr cpuBuffer) p =
      if m.done > 0 then .done (some ()) (p.next e es)
      else .done none { p.next e es with reqs := recordNotification p.reqs m } := by
  rw [handlerIteration_eq, Prog.interp_bind, interp_handleNotification_of_some h hm]
  by_cases hdone : m.done > 0
  · simp only [handlerTail, if_pos hdone]
    rfl
  · simp only [handlerTail, if_neg hdone, recordNotification]
    cases m.reqId <;> rfl

theorem interp_handlerIteration_of_none (cpuMr : IbvMr) (cpuBuffer : MemBuffer)
    (h : p.events = e :: es) (hm : e.notification? = none) :
    ∃ msg, Prog.interp Peer.answer (handlerIteration cpuMr cpuBuffer) p =
      .stuck (.panic msg) (p.next e es) := by
  rw [handlerIteration_eq, Prog.interp_bind]
  rcases interp_handleNotification_of_none cpuMr cpuBuffer h hm with ⟨err, herr⟩ | ⟨msg, hmsg⟩
  · exact ⟨_, by rw [herr]; rfl⟩
  · exact ⟨msg, by rw [hmsg]⟩

/-! ### The loop -/

theorem handlerRun_zero : handlerRun cpuMr cpuBuffer 0 p = .done none p := rfl

theorem handler_succ (n : ℕ) :
    handler cpuMr cpuBuffer (n + 1) = (handlerIteration cpuMr cpuBuffer).bind fun
      | none => handler cpuMr cpuBuffer n
      | some _ => handlerEnd := by
  rw [handler_eq, Prog.loop, Prog.bind_assoc]
  refine congrArg (Prog.bind _) (funext fun o => ?_)
  cases o with
  | none => exact (handler_eq cpuMr cpuBuffer n).symm
  | some _ => rfl

theorem handlerRun_nil (h : p.events = []) :
    handlerRun cpuMr cpuBuffer (n + 1) p = .stuck (.ibvPollCq .recv) p := by
  rw [handlerRun, handler_succ, Prog.interp_bind, interp_handlerIteration_nil h]

/-- A failed or malformed event aborts the task. -/
theorem handlerRun_of_none (cpuMr : IbvMr) (cpuBuffer : MemBuffer) (n : ℕ)
    (h : p.events = e :: es) (hm : e.notification? = none) :
    ∃ msg, handlerRun cpuMr cpuBuffer (n + 1) p = .stuck (.panic msg) (p.next e es) := by
  obtain ⟨msg, hmsg⟩ := interp_handlerIteration_of_none cpuMr cpuBuffer h hm
  exact ⟨msg, by rw [handlerRun, handler_succ, Prog.interp_bind, hmsg]⟩

/-- After any other event that is no done notification the loop goes on. -/
theorem handlerRun_of_more (h : p.events = e :: es) {m : Notification}
    (hm : e.notification? = some m) (hdone : ¬ m.done > 0) :
    handlerRun cpuMr cpuBuffer (n + 1) p =
      handlerRun cpuMr cpuBuffer n
        { p.next e es with reqs := recordNotification p.reqs m } := by
  rw [handlerRun, handler_succ, Prog.interp_bind, interp_handlerIteration_of_some h hm,
    if_neg hdone]
  rfl

/-- A done notification leads to the disconnect, whose result is unwrapped. -/
theorem handlerRun_of_done (cpuMr : IbvMr) (cpuBuffer : MemBuffer) (n : ℕ)
    (h : p.events = e :: es) {m : Notification} (hm : e.notification? = some m)
    (hdone : m.done > 0) :
    (p.discRet.isOk = true → handlerRun cpuMr cpuBuffer (n + 1) p =
      .done (some ()) { p.next e es with disconnected := true }) ∧
    (p.discRet.isOk = false → ∃ msg, handlerRun cpuMr cpuBuffer (n + 1) p =
      .stuck (.panic msg) { p.next e es with disconnected := true }) := by
  have hrun : handlerRun cpuMr cpuBuffer (n + 1) p =
      Prog.interp Peer.answer ((Task.unwrap (rdmaCall "rdma_disconnect" p.discRet)).bind
        fun _ => .ret (some ())) { p.next e es with disconnected := true } := by
    rw [handlerRun, handler_succ, Prog.interp_bind, interp_handlerIteration_of_some h hm,
      if_pos hdone]
    rfl
  refine ⟨fun hok => ?_, fun hbad => ?_⟩
  · rw [hrun, rdmaCall_of_isOk hok]
    rfl
  · obtain ⟨err, herr⟩ := rdmaCall_of_not_isOk "rdma_disconnect" hbad
    exact ⟨_, by rw [hrun, herr]; rfl⟩

/-! ### Control -/

theorem isDone_iff {m : Notification} (hm : e.notification? = some m) :
    e.IsDone ↔ m.done > 0 := by
  simp [RecvEvent.IsDone, hm]

theorem exists_notification (h : e.WellFormed) : ∃ m, e.notification? = some m :=
  Option.isSome_iff_exists.mp h

theorem notification?_of_not_wellFormed (h : ¬ e.WellFormed) : e.notification? = none :=
  Option.not_isSome_iff_eq_none.mp h

theorem upToDone_of_isDone (h : e.IsDone) : upToDone (e :: es) = [e] := if_pos h

theorem upToDone_of_not_isDone (h : ¬ e.IsDone) : upToDone (e :: es) = e :: upToDone es :=
  if_neg h

/-- The events up to the first done notification are neither failed nor malformed, and if there
is a done notification the disconnect it leads to succeeds. -/
def Manageable (p : Peer) : Prop :=
  (∀ e ∈ upToDone p.events, e.WellFormed) ∧
    ((∃ e ∈ p.events, e.IsDone) → p.discRet.isOk = true)

theorem Manageable.wellFormed (hp : Manageable p) (h : p.events = e :: es) : e.WellFormed := by
  refine hp.1 e ?_
  rw [h, upToDone]
  split <;> simp

/-- The condition passes on to what is left after an event that is no done notification. -/
theorem Manageable.next (hp : Manageable p) (h : p.events = e :: es) (hdone : ¬ e.IsDone)
    (reqs : CompletionReqs) : Manageable { p.next e es with reqs := reqs } := by
  refine ⟨fun d hd => hp.1 d ?_, fun ⟨d, hd, hdd⟩ => hp.2 ⟨d, ?_, hdd⟩⟩
  · rw [h, upToDone_of_not_isDone hdone]
    exact List.mem_cons_of_mem e hd
  · rw [h]
    exact List.mem_cons_of_mem e hd

theorem noPanic_of_manageable (hp : Manageable p) (n : ℕ) (msg : String) (p' : Peer) :
    handlerRun cpuMr cpuBuffer n p ≠ .stuck (.panic msg) p' := by
  induction n generalizing p with
  | zero => simp [handlerRun_zero]
  | succ n ih =>
    cases h : p.events with
    | nil => simp [handlerRun_nil h]
    | cons e es =>
      obtain ⟨m, hm⟩ := exists_notification (hp.wellFormed h)
      by_cases hdone : m.done > 0
      · have hok : p.discRet.isOk = true :=
          hp.2 ⟨e, by simp [h], (isDone_iff hm).mpr hdone⟩
        simp [(handlerRun_of_done cpuMr cpuBuffer n h hm hdone).1 hok]
      · rw [handlerRun_of_more h hm hdone]
        exact ih (hp.next h (mt (isDone_iff hm).mp hdone) _)

theorem disconnects_of_manageable (hp : Manageable p) (n : ℕ) {p' : Peer}
    (hrun : handlerRun cpuMr cpuBuffer n p = .done (some ()) p') : p'.disconnected = true := by
  induction n generalizing p with
  | zero => simp [handlerRun_zero] at hrun
  | succ n ih =>
    cases h : p.events with
    | nil => simp [handlerRun_nil h] at hrun
    | cons e es =>
      obtain ⟨m, hm⟩ := exists_notification (hp.wellFormed h)
      by_cases hdone : m.done > 0
      · have hok : p.discRet.isOk = true :=
          hp.2 ⟨e, by simp [h], (isDone_iff hm).mpr hdone⟩
        rw [(handlerRun_of_done cpuMr cpuBuffer n h hm hdone).1 hok] at hrun
        cases hrun
        rfl
      · rw [handlerRun_of_more h hm hdone] at hrun
        exact ih (hp.next h (mt (isDone_iff hm).mp hdone) _) hrun

/-- An event that ends the run records nothing. -/
theorem reqs_handlerRun_of_ending (h : p.events = e :: es) (he : ¬ e.WellFormed ∨ e.IsDone)
    (n : ℕ) : (handlerRun cpuMr cpuBuffer n p).state.reqs = p.reqs := by
  cases n with
  | zero => rfl
  | succ n =>
    rcases he with he | ⟨m, hm, hdone⟩
    · obtain ⟨msg, hmsg⟩ := handlerRun_of_none cpuMr cpuBuffer n h
        (notification?_of_not_wellFormed he)
      rw [hmsg]
      rfl
    · have hrun := handlerRun_of_done cpuMr cpuBuffer n h hm hdone
      cases hret : p.discRet.isOk with
      | true => rw [hrun.1 hret]; rfl
      | false =>
        obtain ⟨msg, hmsg⟩ := hrun.2 hret
        rw [hmsg]
        rfl

/-- **A failed or malformed event records nothing**, whatever came before it. -/
theorem reqs_handlerRun_concat (p : Peer) (pre : List RecvEvent) (he : ¬ e.WellFormed) (n : ℕ) :
    (handlerRun cpuMr cpuBuffer n { p with events := pre ++ [e] }).state.reqs =
      (handlerRun cpuMr cpuBuffer n { p with events := pre }).state.reqs := by
  induction pre generalizing p n with
  | nil =>
    refine (reqs_handlerRun_of_ending (p := { p with events := [e] }) rfl (.inl he) n).trans ?_
    cases n with
    | zero => rfl
    | succ n => rw [handlerRun_nil (p := { p with events := [] }) rfl]; rfl
  | cons d ds ih =>
    -- both runs see the same first event `d`
    by_cases hd : ¬ d.WellFormed ∨ d.IsDone
    · exact (reqs_handlerRun_of_ending (p := { p with events := d :: (ds ++ [e]) }) rfl hd n).trans
        (reqs_handlerRun_of_ending (p := { p with events := d :: ds }) rfl hd n).symm
    · obtain ⟨hwf, hnd⟩ := not_or.mp hd
      obtain ⟨m, hm⟩ := exists_notification (not_not.mp hwf)
      have hdone : ¬ m.done > 0 := mt (isDone_iff hm).mpr hnd
      cases n with
      | zero => rfl
      | succ n =>
        rw [List.cons_append, handlerRun_of_more (p := { p with events := d :: (ds ++ [e]) }) rfl
          hm hdone, handlerRun_of_more (p := { p with events := d :: ds }) rfl hm hdone]
        exact ih { p with page := d.page, reqs := recordNotification p.reqs m } n

theorem manageable_of_noPanic
    (h : ∀ n msg p', handlerRun cpuMr cpuBuffer n p ≠ .stuck (.panic msg) p') :
    Manageable p := by
  generalize hes : p.events = es
  induction es generalizing p with
  | nil => exact ⟨by simp [hes, upToDone], by simp [hes]⟩
  | cons e es ih =>
    have hwf : e.WellFormed := by
      by_contra hwf
      obtain ⟨msg, hmsg⟩ := handlerRun_of_none cpuMr cpuBuffer 0 hes
        (notification?_of_not_wellFormed hwf)
      exact h _ _ _ hmsg
    obtain ⟨m, hm⟩ := exists_notification hwf
    by_cases hdone : m.done > 0
    · refine ⟨fun d hd => ?_, fun _ => ?_⟩
      · rw [hes, upToDone_of_isDone ((isDone_iff hm).mpr hdone), List.mem_singleton] at hd
        rwa [hd]
      · by_contra hret
        obtain ⟨msg, hmsg⟩ := (handlerRun_of_done cpuMr cpuBuffer 0 hes hm hdone).2
          (Bool.not_eq_true _ ▸ hret)
        exact h _ _ _ hmsg
    · have hnd : ¬ e.IsDone := mt (isDone_iff hm).mp hdone
      obtain ⟨hall, hdisc⟩ := ih (p := { p.next e es with reqs := recordNotification p.reqs m })
        (fun n msg p' hn => h (n + 1) msg p' (by rw [handlerRun_of_more hes hm hdone, hn])) rfl
      refine ⟨fun d hd => ?_, fun ⟨d, hd, hdd⟩ => hdisc ⟨d, ?_, hdd⟩⟩
      · rw [hes, upToDone_of_not_isDone hnd, List.mem_cons] at hd
        rcases hd with rfl | hd
        · exact hwf
        · exact hall d hd
      · rw [hes, List.mem_cons] at hd
        rcases hd with rfl | hd
        · exact absurd hdd hnd
        · exact hd

/-- **Control.** The handler stays in control of exactly those events that are well formed up to
the first done notification; the disconnect that follows a done notification has to succeed. -/
theorem inControl_iff (cpuMr : IbvMr) (cpuBuffer : MemBuffer) (p : Peer) :
    InControl cpuMr cpuBuffer p ↔
      (∀ e ∈ upToDone p.events, e.WellFormed) ∧
        ((∃ e ∈ p.events, e.IsDone) → p.discRet.isOk = true) := by
  refine ⟨fun h => manageable_of_noPanic h.noPanic, fun h => ⟨?_, ?_, ?_⟩⟩
  · exact noPanic_of_manageable h
  · exact fun n p' => disconnects_of_manageable h n
  · exact fun n pre e post _ he => reqs_handlerRun_concat p pre he n

/-- A successful write with immediate whose immediate is `u32::MAX`. -/
def oversizedEvent : RecvEvent := ⟨⟨ibvWcSuccess, ibvWcRecvRdmaWithImm, 0xFFFFFFFF⟩, Page.zero⟩

/-- One such event and the task is gone, whatever the disconnect would have returned. -/
theorem not_inControl_oversized :
    ¬ InControl ⟨4096, cpuBufferBaseSize, 1, 1⟩ ⟨4096⟩
      ⟨[oversizedEvent], Page.zero, .new 1024, .ret 0 0, false⟩ := by
  intro h
  have hwf := (manageable_of_noPanic h.noPanic).1 oversizedEvent (by simp [upToDone])
  revert hwf
  decide

end Server

end RdmaTransport
