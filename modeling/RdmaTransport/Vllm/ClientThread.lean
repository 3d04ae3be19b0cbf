import RdmaTransport.Internal.Run
import RdmaTransport.Vllm.Sequential
import RdmaTransport.Vllm.Client

/-!
# The client's thread

What the worker owns and what it is told: the rest of its queue, the completion table and its lock,
and the outcomes of its posts and polls, which the environment chooses freely. The view also keeps a
record of what has happened: which notifications were put into the page, how `write_metadata` ended
for which request, and the numbers of the commands whose work request ended with a success
completion.

An invariant of the thread is proved command by command with `Handler.Always`, against all choices
or against those a guard allows, and holds between any two operations: there are no other threads
on this side, and `is_complete` only reads.

## Main definitions

* `ClientView`, `ClientView.handler` — the view and the environment's choices
* `ClientView.isComplete` — `VllmRdmaClient::is_complete`

## Main results

* `always_postAndPoll` — the rule for one operation
* `announced_of_isComplete` — as long as every announcement succeeds, whatever the client reports
  complete has been announced
-/

namespace RdmaTransport

open Interaction

/-! ### The view -/

/-- What the client's page is being used for. -/
inductive Stage
  /-- Nothing. -/
  | idle
  /-- These bytes have been written to it. -/
  | written (bytes : List UInt8)
  /-- It holds this notification. -/
  | ready (n : Notification)
  /-- The write that carries the notification has been posted. -/
  | posted (n : Notification)
  deriving DecidableEq

namespace Stage

/-- A post has been accepted. -/
def post : Stage → Stage
  | ready n => posted n
  | stage => stage

/-- A post has been refused. -/
def refuse : Stage → Stage
  | ready _ => idle
  | stage => stage

/-- A completion has been polled. -/
def complete : Stage → Stage
  | posted _ => idle
  | stage => stage

end Stage

/-- What the worker owns, and what has happened. -/
structure ClientView where
  /-- The commands still in the channel. -/
  queue : List Command
  /-- How many have been taken. -/
  taken : ℕ
  /-- The table. -/
  reqs : CompletionReqs
  /-- Whether the worker holds the table's lock. -/
  locked : Bool
  /-- What the page is used for. -/
  stage : Stage
  /-- The numbers of the commands that posted the outstanding work requests, oldest first. -/
  outstanding : List ℕ
  /-- The numbers of the commands whose work request ended with a success completion. -/
  succeeded : List ℕ
  /-- The notifications put into the page. -/
  wrote : List Notification
  /-- How `write_metadata` returned, by request. -/
  announced : List (ReqId × Except TransportErrors Unit)

namespace ClientView

/-- Before the first command. -/
def init (cmds : List Command) : ClientView := ⟨cmds, 0, .new 1024, false, .idle, [], [], [], []⟩

/-- `VllmRdmaClient::is_complete`: `try_read` fails while the lock is held. -/
def isComplete (v : ClientView) (req : ReqId) : Bool := !v.locked && v.reqs.isReqComplete req

/-- What the environment decides. -/
inductive Choice
  /-- A call returns this. A post is accepted if it is success. -/
  | ret (r : CRet)
  /-- `poll_cq` gives this back. -/
  | polled (p : PollRet)
  /-- Go on. -/
  | go
  deriving DecidableEq

variable (v : ClientView)

/-- A post has been accepted. -/
def accepted : ClientView :=
  { v with outstanding := v.outstanding ++ [v.taken], stage := v.stage.post }

/-- A post has been refused. -/
def refused : ClientView := { v with stage := v.stage.refuse }

/-- The completion of the oldest request, posted by command `k`, has been polled. -/
def completed (k : ℕ) (rest : List ℕ) (wc : IbvWc) : ClientView :=
  { v with
    outstanding := rest
    succeeded := if wc.status = ibvWcSuccess then v.succeeded ++ [k] else v.succeeded
    stage := v.stage.complete }

/-- Something has been recorded. -/
def note : Observation → ClientView
  | .wrote n => { v with stage := .ready n, wrote := v.wrote ++ [n] }
  | .announced reqId result => { v with announced := v.announced ++ [(reqId, result)] }
  | _ => v

/-- The next command has been taken. -/
def took (cs : List Command) : ClientView := { v with queue := cs, taken := v.taken + 1 }

/-- The environment of the worker. An operation that is not answered has not returned yet. -/
def handler : Handler iface ClientView Choice
  | .recvCmd, v, .go =>
    match v.queue with
    | c :: cs => some (some c, v.took cs)
    | [] => some (none, v)
  | .writePage _ bytes, v, .go => some ((), { v with stage := .written bytes })
  | .observe o, v, .go => some ((), v.note o)
  | .lockReqs, v, .go => some (v.reqs, { v with locked := true })
  | .putReqs reqs, v, .go => some ((), { v with reqs := reqs })
  | .unlockReqs, v, .go => some ((), { v with locked := false })
  | .overflow, v, .go => some ((), v)
  | .ibvPostSend _, v, .ret r => some (r, if r.isOk then v.accepted else v.refused)
  | .rdmaDisconnect, v, .ret r => some (r, v)
  | .ibvPollCq .send, v, .polled p =>
    match p with
    | .entry wc =>
      match v.outstanding with
      | k :: rest => some (.entry wc, v.completed k rest wc)
      | [] => none
    | p => some (p, v)
  | _, _, _ => none

end ClientView

namespace ClientView

/-- The worker has put a notification into its page. -/
def announcing (v : ClientView) (n : Notification) : ClientView :=
  { v with stage := .written n.serialize }.note (.wrote n)

/-- The worker has recorded a request and holds the lock. -/
def recorded (v : ClientView) (req : ReqId) : ClientView :=
  { v with locked := true, reqs := v.reqs.record req }

/-- `write_metadata` has returned and the lock is dropped. -/
def told (v : ClientView) (req : ReqId) (result : Except TransportErrors Unit) : ClientView :=
  { v with announced := v.announced ++ [(req, result)], locked := false }

end ClientView

/-! ### One operation -/

section Rules

variable {g : (op : Op) → ClientView → ClientView.Choice → Bool} {I : Op → ClientView → Prop}
  {v : ClientView}

/-- **One poll**, under the choices a guard allows: it fails, or it hands out the oldest
completion. -/
theorem always_pollSend {Q : Except TransportErrors Unit → ClientView → Prop} {op what : String}
    (hpoll : I (.ibvPollCq .send) v)
    (hfails : ∀ p, (∀ wc, p ≠ .entry wc) → g (.ibvPollCq .send) v (.polled p) = true →
      ∀ e, Q (.error e) v)
    (hentry : ∀ wc k rest, v.outstanding = k :: rest →
      g (.ibvPollCq .send) v (.polled (.entry wc)) = true →
      (wc.status = ibvWcSuccess → Q (.ok ()) (v.completed k rest wc)) ∧
        (wc.status ≠ ibvWcSuccess → ∀ e, Q (.error e) (v.completed k rest wc))) :
    (Handler.within ClientView.handler g).Always I Q
      (Task.call (.ibvPollCq .send) fun p => .ret ((compResult op what p).map fun _ => ())) v := by
  refine ⟨hpoll, ?_⟩
  intro choice p v₁ hp
  obtain ⟨hg, hp⟩ := Handler.within_eq_some.mp hp
  cases choice with
  | polled p' =>
    cases p' with
    | notFound => cases hp; exact hfails _ (fun _ => by simp) hg _
    | negative code => cases hp; exact hfails _ (fun _ => by simp) hg _
    | entry wc =>
      simp only [ClientView.handler] at hp
      split at hp
      next k rest hout =>
        cases hp
        obtain ⟨hsuccess, hfailure⟩ := hentry wc k rest hout hg
        by_cases hwc : wc.status = ibvWcSuccess
        · simp only [compResult_entry_of_success hwc]
          exact hsuccess hwc
        · obtain ⟨e, he⟩ := compResult_entry_of_failed op what hwc
          simp only [he]
          exact hfailure hwc e
      · cases hp
  | _ => cases hp

/-- **One post, one poll**: the four ways it can end. -/
theorem always_postAndPoll {Q : Except TransportErrors Unit → ClientView → Prop} {wr : IbvSendWr}
    {op what : String} (hpost : I (.ibvPostSend wr) v)
    (hrefused : ∀ r, CRet.isOk r = false → g (.ibvPostSend wr) v (.ret r) = true →
      ∀ e, Q (.error e) v.refused)
    (hpoll : ∀ r, CRet.isOk r = true → g (.ibvPostSend wr) v (.ret r) = true →
      I (.ibvPollCq .send) v.accepted)
    (hfails : ∀ p, (∀ wc, p ≠ .entry wc) → g (.ibvPollCq .send) v.accepted (.polled p) = true →
      ∀ e, Q (.error e) v.accepted)
    (hentry : ∀ wc k rest, v.accepted.outstanding = k :: rest →
      g (.ibvPollCq .send) v.accepted (.polled (.entry wc)) = true →
      (wc.status = ibvWcSuccess → Q (.ok ()) (v.accepted.completed k rest wc)) ∧
        (wc.status ≠ ibvWcSuccess → ∀ e, Q (.error e) (v.accepted.completed k rest wc))) :
    (Handler.within ClientView.handler g).Always I Q (postAndPoll wr op what).run v := by
  refine always_postThenPoll hpost ?_ ?_
  · intro choice r v₁ hr hrefuse e
    obtain ⟨hg, hr⟩ := Handler.within_eq_some.mp hr
    cases choice <;> cases hr
    rw [hrefuse, if_neg Bool.false_ne_true]
    exact hrefused _ hrefuse hg e
  · intro choice r v₁ hr hok
    obtain ⟨hg, hr⟩ := Handler.within_eq_some.mp hr
    cases choice <;> cases hr
    rw [hok, if_pos rfl]
    exact always_pollSend (hpoll _ hok hg) hfails hentry

/-- The deterministic operations: one rule for each. -/
theorem always_go {α : Type} {Q : α → ClientView → Prop} {op : Op} {k : op.Ans → Task α}
    {r : op.Ans} {v' : ClientView} (hI : I op v)
    (hop : ∀ choice res, ClientView.handler op v choice = some res → res = (r, v'))
    (hk : (Handler.within ClientView.handler g).Always I Q (k r) v') :
    (Handler.within ClientView.handler g).Always I Q (Task.call op k) v := by
  refine ⟨hI, ?_⟩
  intro choice r₁ v₁ hr
  obtain ⟨-, hr⟩ := Handler.within_eq_some.mp hr
  cases hop choice _ hr
  exact hk

theorem always_panic {α : Type} {Q : α → ClientView → Prop} {msg : String}
    (hI : I (.panic msg) v) :
    (Handler.within ClientView.handler g).Always I Q (Task.panic msg) v :=
  ⟨hI, fun _ r => r.elim⟩

section Operations

variable {α : Type} {Q : α → ClientView → Prop} {k : Unit → Task α}

theorem always_observe {o : Observation} (hI : I (.observe o) v)
    (hk : (Handler.within ClientView.handler g).Always I Q (k ()) (v.note o)) :
    (Handler.within ClientView.handler g).Always I Q (Task.call (.observe o) k) v :=
  always_go hI (fun choice _ h => by cases choice <;> cases h; rfl) hk

theorem always_overflow (hI : I .overflow v)
    (hk : (Handler.within ClientView.handler g).Always I Q (k ()) v) :
    (Handler.within ClientView.handler g).Always I Q (Task.call .overflow k) v :=
  always_go hI (fun choice _ h => by cases choice <;> cases h; rfl) hk

theorem always_writePage {buf : MemBuffer} {bytes : List UInt8} (hI : I (.writePage buf bytes) v)
    (hk : (Handler.within ClientView.handler g).Always I Q (k ())
      { v with stage := .written bytes }) :
    (Handler.within ClientView.handler g).Always I Q (Task.call (.writePage buf bytes) k) v :=
  always_go hI (fun choice _ h => by cases choice <;> cases h; rfl) hk

theorem always_lockReqs {k : CompletionReqs → Task α} (hI : I .lockReqs v)
    (hk : (Handler.within ClientView.handler g).Always I Q (k v.reqs) { v with locked := true }) :
    (Handler.within ClientView.handler g).Always I Q (Task.call .lockReqs k) v :=
  always_go hI (fun choice _ h => by cases choice <;> cases h; rfl) hk

theorem always_putReqs {reqs : CompletionReqs} (hI : I (.putReqs reqs) v)
    (hk : (Handler.within ClientView.handler g).Always I Q (k ()) { v with reqs := reqs }) :
    (Handler.within ClientView.handler g).Always I Q (Task.call (.putReqs reqs) k) v :=
  always_go hI (fun choice _ h => by cases choice <;> cases h; rfl) hk

theorem always_unlockReqs (hI : I .unlockReqs v)
    (hk : (Handler.within ClientView.handler g).Always I Q (k ()) { v with locked := false }) :
    (Handler.within ClientView.handler g).Always I Q (Task.call .unlockReqs k) v :=
  always_go hI (fun choice _ h => by cases choice <;> cases h; rfl) hk

end Operations

theorem always_addU64 {Q : UInt64 → ClientView → Prop} {a b : UInt64} (hI : I .overflow v)
    (hQ : Q (a + b) v) :
    (Handler.within ClientView.handler g).Always I Q (Task.addU64 a b) v := by
  by_cases h : a.toNat + b.toNat < 2 ^ 64
  · rw [Task.addU64_of_lt h]
    exact hQ
  · rw [Task.addU64_of_ge h]
    exact always_overflow hI hQ

/-! ### The arms -/

/-- **Transfers.** A transfer that gets as far as posting is one operation, and logs its error. -/
theorem always_transferArm {s : Session} {loc rem : TensorBlock} {opcode : WrOpcode}
    {op : Connection → IbvMr → UInt64 → UInt64 → UInt32 → Fallible Unit}
    {R : Except TransportErrors Unit → ClientView → Prop} {Q : Option Unit → ClientView → Prop}
    (hop : Client.IsTransfer op opcode) (hoverflow : I .overflow v)
    (hpanic : ∀ msg, I (.panic msg) v)
    (hrun : ∀ wr name what, wr.opcode = opcode →
      (Handler.within ClientView.handler g).Always I R (postAndPoll wr name what).run v)
    (hend : ∀ r v', R r v' → Q none v' ∧ ∀ e, I (.observe (.error "write data error" e)) v') :
    (Handler.within ClientView.handler g).Always I Q (Client.transferArm s op loc rem) v := by
  obtain ⟨name, what, hop⟩ := hop
  cases hrem : s.remoteGpuBuffers.lookup rem.basePtr with
  | none =>
    rw [Client.transferArm_of_lookup_remote_none hrem]
    exact always_panic (hpanic _)
  | some conn =>
    cases hloc : s.localGpuBuffers.lookup loc.basePtr with
    | none =>
      rw [Client.transferArm_of_lookup_local_none hloc]
      exact always_panic (hpanic _)
    | some q =>
      rw [Client.transferArm_of_lookup hrem hloc]
      refine (always_addU64 (Q := fun _ v' => v = v') hoverflow rfl).bind ?_
      rintro localAddr _ rfl
      refine (always_addU64 (Q := fun _ v' => v = v') hoverflow rfl).bind ?_
      rintro remoteAddr _ rfl
      rw [hop]
      refine (hrun _ name what rfl).bind ?_
      intro r v' hr
      obtain ⟨hQ, hI⟩ := hend r v' hr
      cases r with
      | ok _ => exact hQ
      | error e =>
        exact always_observe (hI e) hQ

/-- **`Complete`.** An arm whose notification fits is one operation, under the lock. -/
theorem always_completeArm {s : Session} {req : ReqId}
    {R : Except TransportErrors Unit → ClientView → Prop} {Q : Option Unit → ClientView → Prop}
    (hpage : I (.writePage s.cpuBuffer (Client.announcement req).serialize) v)
    (hpanic : ¬ (Client.announcement req).serializedSize ≤ cpuBufferBaseSize → ∀ msg,
      I (.panic msg) { v with stage := .written (Client.announcement req).serialize })
    (hwrote : (Client.announcement req).serializedSize ≤ cpuBufferBaseSize →
      I (.observe (.wrote (Client.announcement req)))
        { v with stage := .written (Client.announcement req).serialize })
    (hlock : I .lockReqs (v.announcing (Client.announcement req)))
    (hput : I (.putReqs (v.reqs.record req))
      { v.announcing (Client.announcement req) with locked := true })
    (hrun : (Handler.within ClientView.handler g).Always I R
      (postAndPoll (Client.announcementWr s req) "write_metadata" "poll_write_comp").run
      ((v.announcing (Client.announcement req)).recorded req))
    (hend : ∀ r v', R r v' → I (.observe (.announced req r)) v' ∧
      (∀ e, I (.observe (.error "write complete message error" e)) (v'.note (.announced req r))) ∧
      I .unlockReqs (v'.note (.announced req r)) ∧ Q none (v'.told req r)) :
    (Handler.within ClientView.handler g).Always I Q (Client.completeArm s req) v := by
  by_cases hfits : (Client.announcement req).serializedSize ≤ cpuBufferBaseSize
  · rw [Client.completeArm_of_fits hfits]
    refine always_writePage hpage (always_observe (hwrote hfits) ?_)
    refine always_lockReqs hlock (always_putReqs hput ?_)
    refine hrun.bind ?_
    intro r v' hr
    obtain ⟨hannounced, herror, hunlock, hQ⟩ := hend r v' hr
    refine always_observe hannounced ?_
    cases r with
    | ok _ => exact always_unlockReqs hunlock hQ
    | error e => exact always_observe (herror e) (always_unlockReqs hunlock hQ)
  · rw [Client.completeArm_of_not_fits hfits]
    exact always_writePage hpage (always_panic (hpanic hfits _))

/-- **`Disconnect`.** The last arm is one operation and the call that ends the connection. -/
theorem always_disconnectArm {s : Session} {R : Except TransportErrors Unit → ClientView → Prop}
    {Q : Option Unit → ClientView → Prop}
    (hinfo : I (.observe (.info "disconnect")) v)
    (hpage : I (.writePage s.cpuBuffer Notification.complete.serialize) v)
    (hwrote : I (.observe (.wrote .complete))
      { v with stage := .written Notification.complete.serialize })
    (hrun : (Handler.within ClientView.handler g).Always I R
      (postAndPoll (Client.doneWr s) "write_metadata" "poll_write_comp").run
      (v.announcing .complete))
    (hend : ∀ r v', R r v' → (∀ msg, I (.panic msg) v') ∧ I .rdmaDisconnect v' ∧ Q (some ()) v') :
    (Handler.within ClientView.handler g).Always I Q (Client.disconnectArm s) v := by
  rw [Client.disconnectArm_eq]
  refine always_observe hinfo (always_writePage hpage (always_observe hwrote ?_))
  refine hrun.bind ?_
  intro r v' hr
  obtain ⟨hpanic, hdisc, hQ⟩ := hend r v' hr
  cases r with
  | error e => exact always_panic (hpanic _)
  | ok _ =>
    refine ⟨hdisc, ?_⟩
    intro choice ret v₁ hret
    obtain ⟨-, hret⟩ := Handler.within_eq_some.mp hret
    cases choice with
    | ret r' =>
      cases hret
      cases hcall : rdmaCall "rdma_disconnect" ret with
      | ok _ =>
        simp only [hcall, Task.unwrap]
        exact hQ
      | error e =>
        simp only [hcall, Task.unwrap, Task.panic_bind]
        exact always_panic (hpanic _)
    | _ => cases hret

/-- **The worker, counted.** What every arm takes from one number of commands to the next. -/
theorem always_worker_counted {s : Session} {J : ℕ → ClientView → Prop}
    {End : ClientView → Prop} (n : ℕ) (hv : J 0 v) (hrecv : ∀ i v, J i v → I .recvCmd v)
    (harm : ∀ i v c cs, J i v → v.queue = c :: cs →
      (Handler.within ClientView.handler g).Always I
        (fun o v' => o.elim (J (i + 1) v') fun _ => End v') (Client.arm s c) (v.took cs))
    (hclosed : ∀ i v, J i v → v.queue = [] → End v) :
    (Handler.within ClientView.handler g).Always I (fun o v' => o.elim (J n v') fun _ => End v')
      (Client.worker s n) v := by
  have hpass (i : ℕ) (v : ClientView) (hv : J i v) :
      (Handler.within ClientView.handler g).Always I
        (fun o v' => o.elim (J (i + 1) v') fun _ => End v') (Client.iteration s) v := by
    refine ⟨hrecv i v hv, ?_⟩
    intro choice r v₁ hr
    obtain ⟨-, hr⟩ := Handler.within_eq_some.mp hr
    cases choice with
    | go =>
      simp only [ClientView.handler] at hr
      split at hr
      next c cs hqueue => cases hr; exact harm i v c cs hv hqueue
      next hqueue => cases hr; exact hclosed i _ hv hqueue
    | _ => cases hr
  have hloop := Handler.Always.loop_counted (R := fun _ => End) hpass 0 n hv
  rwa [Nat.zero_add] at hloop

/-- **The worker.** What every arm keeps, the whole worker keeps. -/
theorem always_worker {s : Session} {Inv End : ClientView → Prop} (n : ℕ) (hv : Inv v)
    (hrecv : ∀ v, Inv v → I .recvCmd v)
    (harm : ∀ v c cs, Inv v → v.queue = c :: cs → (Handler.within ClientView.handler g).Always I
      (fun o v' => o.elim (Inv v') fun _ => End v') (Client.arm s c) (v.took cs))
    (hclosed : ∀ v, Inv v → v.queue = [] → End v) :
    (Handler.within ClientView.handler g).Always I (fun o v' => o.elim (Inv v') fun _ => End v')
      (Client.worker s n) v :=
  always_worker_counted (J := fun _ => Inv) n hv (fun _ => hrecv) (fun _ => harm) fun _ => hclosed

end Rules

/-! ### Reported means announced -/

/-- The announcements of request `req` succeed: their posts are accepted and they are told of a
success completion. Nothing is asked of any other work request. -/
def announcementSucceeds (req : ReqId) : (op : Op) → ClientView → ClientView.Choice → Bool
  | .ibvPostSend _, v, .ret r => v.stage != .ready (Client.announcement req) || CRet.isOk r
  | .ibvPollCq .send, v, .polled p =>
    v.stage != .posted (Client.announcement req) ||
      match p with
      | .entry wc => wc.status == ibvWcSuccess
      | _ => false
  | _, _, _ => true

/-- Between two commands: the lock is free, and `req` is in the table only if it was announced. -/
def Told (req : ReqId) (v : ClientView) : Prop :=
  v.locked = false ∧ (v.reqs.isReqComplete req = true → (req, .ok ()) ∈ v.announced)

/-- At any time: if `req` is reported complete it was announced. -/
def ToldIfReported (req : ReqId) (v : ClientView) : Prop :=
  v.isComplete req = true → (req, .ok ()) ∈ v.announced

section Reported

variable {req : ReqId} {v : ClientView}

theorem toldIfReported_of_locked (h : v.locked = true) : ToldIfReported req v := by
  intro hr
  simp [ClientView.isComplete, h] at hr

theorem Told.toldIfReported (h : Told req v) : ToldIfReported req v := by
  intro hr
  simp only [ClientView.isComplete, Bool.and_eq_true] at hr
  exact h.2 hr.2

/-- What `req` depends on is as before. -/
def SameTable (v v' : ClientView) : Prop :=
  v'.locked = v.locked ∧ v'.reqs = v.reqs ∧ v'.announced = v.announced

theorem Told.congr {v' : ClientView} (h : Told req v) (hs : SameTable v v') : Told req v' := by
  obtain ⟨hl, hr, ha⟩ := hs
  exact ⟨hl ▸ h.1, by rw [hr, ha]; exact h.2⟩

/-- An operation on the connection leaves the table alone, however it ends. -/
theorem sameTable_postAndPoll {g : (op : Op) → ClientView → ClientView.Choice → Bool}
    {wr : IbvSendWr} {name what : String} {P : ClientView → Prop}
    (hP : ∀ v', SameTable v v' → P v') :
    (Handler.within ClientView.handler g).Always (fun _ => P) (fun _ => SameTable v)
      (postAndPoll wr name what).run v :=
  always_postAndPoll (hP v ⟨rfl, rfl, rfl⟩) (fun _ _ _ _ => ⟨rfl, rfl, rfl⟩)
    (fun _ _ _ => hP _ ⟨rfl, rfl, rfl⟩) (fun _ _ _ _ => ⟨rfl, rfl, rfl⟩)
    (fun _ _ _ _ _ => ⟨fun _ => ⟨rfl, rfl, rfl⟩, fun _ _ => ⟨rfl, rfl, rfl⟩⟩)

theorem told_transferArm {s : Session} {loc rem : TensorBlock} {opcode : WrOpcode}
    {op : Connection → IbvMr → UInt64 → UInt64 → UInt32 → Fallible Unit}
    (hop : Client.IsTransfer op opcode) (h : Told req v) :
    (Handler.within ClientView.handler (announcementSucceeds req)).Always
      (fun _ => ToldIfReported req) (fun o v' => o.elim (Told req v') fun _ => Told req v')
      (Client.transferArm s op loc rem) v :=
  always_transferArm hop h.toldIfReported (fun _ => h.toldIfReported)
    (fun _ _ _ _ => sameTable_postAndPoll fun _ hs => (h.congr hs).toldIfReported)
    fun _ _ hs => ⟨h.congr hs, fun _ => (h.congr hs).toldIfReported⟩

/-- Announcing `req` itself succeeds. -/
theorem announced_self (s : Session) (v : ClientView) (hl : v.locked = true)
    (hstage : v.stage = .ready (Client.announcement req)) :
    (Handler.within ClientView.handler (announcementSucceeds req)).Always
      (fun _ => ToldIfReported req) (fun r v' => r = .ok () ∧ SameTable v v')
      (postAndPoll (Client.announcementWr s req) "write_metadata" "poll_write_comp").run v := by
  have hposted : v.accepted.stage = .posted (Client.announcement req) := by
    simp [ClientView.accepted, hstage, Stage.post]
  refine always_postAndPoll (toldIfReported_of_locked hl) ?_ ?_ ?_ ?_
  · intro r hr hg
    simp [announcementSucceeds, hstage, hr] at hg
  · exact fun r _ _ => toldIfReported_of_locked hl
  · intro p hp hg
    cases p with
    | entry wc => exact absurd rfl (hp wc)
    | _ => simp [announcementSucceeds, hposted] at hg
  · intro wc k rest _ hg
    have hsuccess : wc.status = ibvWcSuccess := by
      simpa [announcementSucceeds, hposted] using hg
    exact ⟨fun _ => ⟨rfl, rfl, rfl, rfl⟩, fun hne => absurd hsuccess hne⟩

theorem told_completeArm (s : Session) (r : ReqId) (h : Told req v) :
    (Handler.within ClientView.handler (announcementSucceeds req)).Always
      (fun _ => ToldIfReported req) (fun o v' => o.elim (Told req v') fun _ => Told req v')
      (Client.completeArm s r) v := by
  have hpage : SameTable v { v with stage := .written (Client.announcement r).serialize } :=
    ⟨rfl, rfl, rfl⟩
  have hwrote : SameTable v (v.announcing (Client.announcement r)) := ⟨rfl, rfl, rfl⟩
  by_cases hreq : r = req
  · subst hreq
    refine always_completeArm h.toldIfReported (fun _ _ => (h.congr hpage).toldIfReported)
      (fun _ => (h.congr hpage).toldIfReported) (h.congr hwrote).toldIfReported
      (toldIfReported_of_locked rfl) (announced_self s _ rfl rfl) ?_
    rintro _ v' ⟨rfl, hl, hreqs, hannounced⟩
    have htold : Told r (v'.told r (.ok ())) := ⟨rfl, fun _ => by simp [ClientView.told]⟩
    have hl' : v'.locked = true := hl
    refine ⟨toldIfReported_of_locked hl', fun _ => toldIfReported_of_locked hl',
      toldIfReported_of_locked hl', htold⟩
  · refine always_completeArm
      (R := fun _ => SameTable ((v.announcing (Client.announcement r)).recorded r))
      h.toldIfReported (fun _ _ => (h.congr hpage).toldIfReported)
      (fun _ => (h.congr hpage).toldIfReported) (h.congr hwrote).toldIfReported
      (toldIfReported_of_locked rfl)
      (sameTable_postAndPoll fun v' hs => toldIfReported_of_locked hs.1) ?_
    rintro result v' ⟨hl, hreqs, hannounced⟩
    have hl' : v'.locked = true := hl
    refine ⟨toldIfReported_of_locked hl', fun _ => toldIfReported_of_locked hl',
      toldIfReported_of_locked hl', rfl, ?_⟩
    intro hr
    have hr' : (v.reqs.record r).isReqComplete req = true := by
      have : v'.reqs.isReqComplete req = true := hr
      rwa [hreqs] at this
    have hold := (CompletionReqs.isReqComplete_of_record hr').resolve_left (Ne.symm hreq)
    have hmem : (req, .ok ()) ∈ v'.announced := hannounced ▸ h.2 hold
    exact List.mem_append_left _ hmem

theorem told_disconnectArm (s : Session) (h : Told req v) :
    (Handler.within ClientView.handler (announcementSucceeds req)).Always
      (fun _ => ToldIfReported req) (fun o v' => o.elim (Told req v') fun _ => Told req v')
      (Client.disconnectArm s) v :=
  always_disconnectArm (R := fun _ => SameTable v) h.toldIfReported h.toldIfReported
    (h.congr ⟨rfl, rfl, rfl⟩).toldIfReported
    (sameTable_postAndPoll (v := v.announcing .complete) fun _ hs => (h.congr hs).toldIfReported)
    fun _ _ hs => ⟨fun _ => (h.congr hs).toldIfReported, (h.congr hs).toldIfReported, h.congr hs⟩

theorem told_arm (s : Session) (c : Command) (h : Told req v) :
    (Handler.within ClientView.handler (announcementSucceeds req)).Always
      (fun _ => ToldIfReported req) (fun o v' => o.elim (Told req v') fun _ => Told req v')
      (Client.arm s c) v := by
  cases c with
  | send loc rem =>
    rw [Client.arm]
    split
    · exact told_transferArm Client.isTransfer_write h
    · exact h
  | recv loc rem =>
    rw [Client.arm]
    split
    · exact told_transferArm Client.isTransfer_read h
    · exact h
  | complete r => exact told_completeArm s r h
  | disconnect => exact told_disconnectArm s h

/-- **Reported means announced.** In every run in which the announcements of `req` succeed, at
every moment at which the client reports `req` complete, the `write_metadata` call that carries its
notification has returned `Ok`. Nothing is assumed of the other requests. -/
theorem announced_of_isComplete (s : Session) (cmds : List Command) (n : ℕ) (req : ReqId)
    {c : Config iface ClientView (Option Unit)}
    (h : Reach (Handler.step ClientView.handler) (Handler.permits (announcementSucceeds req))
      ⟨.init cmds, Client.worker s n⟩ c) (hr : c.world.isComplete req = true) :
    (req, .ok ()) ∈ c.world.announced := by
  have hinit : Told req (.init cmds) := ⟨rfl, fun h => by simp [ClientView.init,
    CompletionReqs.new, CompletionReqs.isReqComplete] at h⟩
  have hworker : (Handler.within ClientView.handler (announcementSucceeds req)).Always
      (fun _ => ToldIfReported req) (fun o v' => o.elim (Told req v') fun _ => Told req v')
      (Client.worker s n) (.init cmds) :=
    always_worker n hinit (fun v hv => hv.toldIfReported)
      (fun v c cs hv _ => told_arm s c (hv.congr ⟨rfl, rfl, rfl⟩)) fun v hv _ => hv
  have hc := hworker.of_reach h
  obtain ⟨w, p⟩ := c
  cases p with
  | vis op k => exact hc.head hr
  | ret o =>
    cases o with
    | none => exact Told.toldIfReported hc hr
    | some _ => exact Told.toldIfReported hc hr

/-- A session without GPU buffers. -/
def bareSession : Session := ⟨.zero, ⟨4096, cpuBufferBaseSize, 1, 1⟩, ⟨4096⟩, ∅, ∅⟩

theorem announced_of_isComplete_bare :
    ∃ c, Reach (Handler.step ClientView.handler) (Handler.permits (announcementSucceeds [1]))
      ⟨.init [.complete [1]], Client.worker bareSession 1⟩ c ∧
      c.world.isComplete [1] = true ∧ ([1], .ok ()) ∈ c.world.announced := by
  obtain ⟨c, hc, hr⟩ : ∃ c, Reach (Handler.step ClientView.handler)
      (Handler.permits (announcementSucceeds [1]))
      ⟨.init [.complete [1]], Client.worker bareSession 1⟩ c ∧ c.world.isComplete [1] = true :=
    exists_reach_of_execWithin [.go, .go, .go, .go, .go, .ret (.ret 0 0),
      .polled (.entry ⟨ibvWcSuccess, 1, 0⟩), .go, .go] ⟨_, rfl, rfl⟩
  exact ⟨c, hc, hr, announced_of_isComplete bareSession [.complete [1]] 1 [1] hc hr⟩

/-- The post of an announcement is refused. Once the lock is dropped the request is reported
complete, and the only `write_metadata` call for it has returned an error. -/
theorem refused_announcement_reported :
    ∃ c, Reach (Handler.step ClientView.handler) anyStep
      ⟨.init [.complete [1]], Client.worker bareSession 1⟩ c ∧
      c.world.isComplete [1] = true ∧
      ∃ e, c.world.announced = [([1], .error e)] :=
  exists_reach_of_execWithin
    [.go, .go, .go, .go, .go, .ret (.ret (-1) 12), .go, .go, .go] ⟨_, rfl, rfl, _, rfl⟩

end Reported

end RdmaTransport
