import RdmaTransport.Vllm.ClientRule
import RdmaTransport.Vllm.Listen

/-!
# What a worker does, command by command

The worker against an environment that chooses everything: which commands arrive, what every call
returns, and which table the lock shows. Whatever it chooses, the work requests that are handed to
`ibv_post_send`, accepted or not, and the requests that are recorded are told by the commands that
have been taken: each command before the last hands over the one work request it stands for, if it
stands for one, and records its request, if it has one that fits the page; the last may still be at
it, or may have panicked on the way. After a disconnect nothing is taken any more.

## Main definitions

* `Client.records` — what a command records
* `WorkerView`, `WorkerView.handler` — what a worker has done, and the environment's choices
* `InTurn` — how that is told by the commands

## Main results

* `always_worker` — it is told so throughout
-/

namespace RdmaTransport

open Interaction

/-! ### What a command records -/

namespace Client

/-- The request that a command records: that of a `Complete` whose notification fits the page. -/
def records : Command → List ReqId
  | .complete reqId =>
    if (announcement reqId).serializedSize ≤ cpuBufferBaseSize then [reqId] else []
  | _ => []

end Client

/-! ### The view -/

/-- What a worker has done. -/
structure WorkerView where
  /-- The commands it has taken. -/
  taken : List Command
  /-- `recv` has found the channel closed and empty. -/
  drained : Bool
  /-- The lock. -/
  guard : Guard
  /-- The work requests it has handed to `ibv_post_send`, whether or not they were accepted. -/
  handed : List IbvSendWr
  /-- The requests it has recorded. -/
  recorded : List ReqId

namespace WorkerView

/-- When it starts. -/
def init : WorkerView := ⟨[], false, .none, [], []⟩

/-- What the environment decides. -/
inductive Choice
  /-- A call returns this. -/
  | ret (r : CRet)
  /-- `poll_cq` gives this back. -/
  | polled (p : PollRet)
  /-- `recv` returns this. -/
  | command (c : Option Command)
  /-- The table is this when it is locked. -/
  | table (reqs : CompletionReqs)
  /-- Go on. -/
  | go

variable (v : WorkerView)

/-- `recv` has returned. -/
def received : Option Command → WorkerView
  | some c => { v with taken := v.taken ++ [c] }
  | none => { v with drained := true }

/-- The request that is recorded next: that of the last command. -/
def due : Option ReqId := v.taken.getLast?.bind Command.reqId

/-- The environment of one worker. An operation that is not answered has not returned yet. -/
def handler : Handler iface WorkerView Choice
  | .recvCmd, v, .command c => some (c, v.received c)
  | .ibvPostSend wr, v, .ret r => some (r, { v with handed := v.handed ++ [wr] })
  | .ibvPollCq .send, v, .polled p => some (p, v)
  | .rdmaDisconnect, v, .ret r => some (r, v)
  | .writePage _ _, v, .go => some ((), v)
  | .lockReqs, v, .table reqs => some (reqs, { v with guard := .locked reqs })
  | .putReqs _, v, .go =>
    some ((), { v with guard := .stored, recorded := v.recorded ++ v.due.toList })
  | .unlockReqs, v, .go => some ((), { v with guard := .none })
  | .overflow, v, .go => some ((), v)
  | .observe _, v, .go => some ((), v)
  | _, _, _ => none

end WorkerView

/-! ### How it is told by the commands -/

variable {s : Session} {v v' : WorkerView} {c : Command} {handed recorded : Bool} {op : Op}

/-- Between two commands. -/
structure Idles (s : Session) (v : WorkerView) : Prop where
  /-- It does not hold the lock. -/
  guard : v.guard = .none
  /-- The channel is not at its end. -/
  drained : v.drained = false
  /-- It has not been told to disconnect. -/
  goes : .disconnect ∉ v.taken
  /-- What it has handed over. -/
  handed : v.handed = v.taken.flatMap (Client.requests s)
  /-- What it has recorded. -/
  recorded : v.recorded = v.taken.flatMap Client.records

/-- During the command `c`: whether its request has been handed over, and recorded, already. -/
structure Doing (s : Session) (c : Command) (handed recorded : Bool) (v : WorkerView) : Prop where
  /-- The channel is not at its end. -/
  drained : v.drained = false
  /-- The commands before it. -/
  before : ∃ cs, v.taken = cs ++ [c] ∧ .disconnect ∉ cs ∧
    v.handed = cs.flatMap (Client.requests s) ++ (if handed then Client.requests s c else []) ∧
    v.recorded = cs.flatMap Client.records ++ (if recorded then Client.records c else [])

/-- What has been handed over and recorded is told by the commands that have been taken: by all of
them, or by all but a part of the last. -/
structure InTurn (s : Session) (v : WorkerView) : Prop where
  /-- A disconnect is the last command. -/
  goes : .disconnect ∉ v.taken.dropLast
  /-- What the commands before the last stand for has been handed over. -/
  handed : v.taken.dropLast.flatMap (Client.requests s) <+: v.handed
  /-- And nothing but what the commands stand for. -/
  hands : v.handed <+: v.taken.flatMap (Client.requests s)
  /-- What the commands before the last record has been recorded. -/
  recorded : v.taken.dropLast.flatMap Client.records <+: v.recorded
  /-- And nothing but what the commands record. -/
  records : v.recorded <+: v.taken.flatMap Client.records

/-- The last command takes what comes before it a step further. -/
theorem prefix_dropLast {β : Type} (f : Command → List β) (cs : List Command) :
    cs.dropLast.flatMap f <+: cs.flatMap f := by
  rcases List.eq_nil_or_concat cs with rfl | ⟨cs, c, rfl⟩
  · exact List.prefix_rfl
  · rw [List.concat_eq_append, List.dropLast_concat, List.flatMap_append]
    exact List.prefix_append _ _

theorem Idles.inTurn (h : Idles s v) : InTurn s v where
  goes hmem := h.goes (List.dropLast_subset _ hmem)
  handed := h.handed ▸ prefix_dropLast _ _
  hands := h.handed ▸ List.prefix_rfl
  recorded := h.recorded ▸ prefix_dropLast _ _
  records := h.recorded ▸ List.prefix_rfl

theorem Doing.inTurn (h : Doing s c handed recorded v) : InTurn s v := by
  obtain ⟨-, cs, htaken, hgoes, hhanded, hrecorded⟩ := h
  refine ⟨?_, ?_, ?_, ?_, ?_⟩
  · rwa [htaken, List.dropLast_concat]
  · rw [htaken, List.dropLast_concat, hhanded]
    exact List.prefix_append _ _
  · rw [htaken, hhanded, List.flatMap_append, List.flatMap_singleton]
    cases handed <;> simp
  · rw [htaken, List.dropLast_concat, hrecorded]
    exact List.prefix_append _ _
  · rw [htaken, hrecorded, List.flatMap_append, List.flatMap_singleton]
    cases recorded <;> simp

/-! ### The arms -/

/-- It has left its loop: it has been told to disconnect, or the channel is at its end. -/
structure Ends (s : Session) (v : WorkerView) : Prop where
  /-- What it has done. -/
  inTurn : InTurn s v
  /-- It does not hold the lock. -/
  guard : v.guard = .none
  /-- Why it ends. -/
  why : v.taken.getLast? = some .disconnect ∨ v.drained = true

/-- What each operation finds. No command is taken after a disconnect, and no task is aborted under
the lock. -/
def WorkerRule (s : Session) (op : Op) (v : WorkerView) : Prop :=
  InTurn s v ∧
    match op with
    | .recvCmd => v.drained = false ∧ .disconnect ∉ v.taken
    | .putReqs reqs => ∃ seen reqId, v.guard = .locked seen ∧ v.due = some reqId ∧
        reqs = seen.record reqId
    | .unlockReqs => v.guard = .stored
    | .lockReqs | .panic _ | .overflow => v.guard = .none
    | _ => True

namespace Doing

/-- The work request of the command is handed over. -/
theorem hand {wr : IbvSendWr} (h : Doing s c false recorded v) (hc : Client.requests s c = [wr]) :
    Doing s c true recorded { v with handed := v.handed ++ [wr] } := by
  obtain ⟨hdrained, cs, htaken, hgoes, hhanded, hrecorded⟩ := h
  refine ⟨hdrained, cs, htaken, hgoes, ?_, hrecorded⟩
  simp [hhanded, hc]

/-- A command that stands for no work request is through with them. -/
theorem handed_of_nil (h : Doing s c false recorded v) (hc : Client.requests s c = []) :
    Doing s c true recorded v := by
  obtain ⟨hdrained, cs, htaken, hgoes, hhanded, hrecorded⟩ := h
  refine ⟨hdrained, cs, htaken, hgoes, ?_, hrecorded⟩
  simp [hhanded, hc]

/-- The command is `Complete(reqId)`, so that is due. -/
theorem due {reqId : ReqId} (h : Doing s (.complete reqId) handed recorded v) :
    v.due = some reqId := by
  obtain ⟨-, cs, htaken, -⟩ := h
  rw [WorkerView.due, htaken, List.getLast?_concat]
  rfl

/-- The request of the command is recorded. -/
theorem record {reqId : ReqId} (h : Doing s (.complete reqId) handed false v)
    (hc : Client.records (.complete reqId) = [reqId]) (guard : Guard) :
    Doing s (.complete reqId) handed true
      { v with guard := guard, recorded := v.recorded ++ v.due.toList } := by
  have hdue := h.due
  obtain ⟨hdrained, cs, htaken, hgoes, hhanded, hrecorded⟩ := h
  refine ⟨hdrained, cs, htaken, hgoes, hhanded, ?_⟩
  simp [hrecorded, hc, hdue]

/-- A command that records nothing is through with it. -/
theorem recorded_of_nil (h : Doing s c handed false v) (hc : Client.records c = []) :
    Doing s c handed true v := by
  obtain ⟨hdrained, cs, htaken, hgoes, hhanded, hrecorded⟩ := h
  refine ⟨hdrained, cs, htaken, hgoes, hhanded, ?_⟩
  simp [hrecorded, hc]

/-- What is done to the lock makes no difference. -/
theorem guarded (h : Doing s c handed recorded v) (guard : Guard) :
    Doing s c handed recorded { v with guard := guard } := ⟨h.drained, h.before⟩

/-- The command is over. -/
theorem idles (h : Doing s c true true v) (hguard : v.guard = .none) (hc : c ≠ .disconnect) :
    Idles s v := by
  obtain ⟨hdrained, cs, htaken, hgoes, hhanded, hrecorded⟩ := h
  refine ⟨hguard, hdrained, ?_, ?_, ?_⟩
  · rw [htaken]
    simpa [hgoes] using Ne.symm hc
  · simp [hhanded, htaken]
  · simp [hrecorded, htaken]

/-- The last command is over. -/
theorem ends (h : Doing s .disconnect handed recorded v) (hguard : v.guard = .none) : Ends s v := by
  refine ⟨h.inTurn, hguard, .inl ?_⟩
  obtain ⟨-, cs, htaken, -⟩ := h
  rw [htaken, List.getLast?_concat]

end Doing

/-- The next command has been taken. -/
theorem Idles.took (h : Idles s v) (c : Command) :
    Doing s c false false { v with taken := v.taken ++ [c] } := by
  refine ⟨h.drained, v.taken, rfl, h.goes, ?_, ?_⟩
  · simp [h.handed]
  · simp [h.recorded]

/-- The channel is at its end. -/
theorem Idles.ends (h : Idles s v) : Ends s { v with drained := true } :=
  ⟨⟨h.inTurn.goes, h.inTurn.handed, h.inTurn.hands, h.inTurn.recorded, h.inTurn.records⟩, h.guard,
    .inr rfl⟩

namespace WorkerView

variable {α : Type} {I : Op → WorkerView → Prop} {choice : Choice}

/-- The operations that leave no trace. -/
def Quiet : Op → Prop
  | .writePage _ _ | .observe _ | .overflow | .ibvPollCq .send | .rdmaDisconnect => True
  | _ => False

theorem eq_of_quiet {r : op.Ans} (hop : Quiet op) (h : handler op v choice = some (r, v')) :
    v' = v := by
  cases op with
  | ibvPollCq cq => cases cq <;> cases choice <;> cases hop <;> cases h; rfl
  | writePage buf bytes | observe o | overflow | rdmaDisconnect =>
    cases choice <;> cases h
    rfl
  | _ => cases hop

theorem always_quiet {Q : α → WorkerView → Prop} {k : op.Ans → Task α} (hop : Quiet op)
    (hI : I op v) (hk : ∀ r, handler.Always I Q (k r) v) :
    handler.Always I Q (Task.call op k) v := by
  refine ⟨hI, ?_⟩
  intro choice r v' hr
  rw [eq_of_quiet hop hr]
  exact hk r

theorem always_panic {Q : α → WorkerView → Prop} {msg : String} (hI : I (.panic msg) v) :
    handler.Always I Q (Task.panic msg) v := ⟨hI, fun _ r => r.elim⟩

/-- **One post, one poll**, however they end. -/
theorem always_post {Q : Except TransportErrors Unit → WorkerView → Prop} {wr : IbvSendWr}
    {name what : String} (hpost : I (.ibvPostSend wr) v)
    (hpoll : I (.ibvPollCq .send) { v with handed := v.handed ++ [wr] })
    (hQ : ∀ r, Q r { v with handed := v.handed ++ [wr] }) :
    handler.Always I Q (postAndPoll wr name what).run v := by
  refine always_postThenPoll hpost ?_ ?_
  · intro choice r v' hr _ e
    cases choice <;> cases hr
    exact hQ _
  · intro choice r v' hr _
    cases choice <;> cases hr
    exact always_quiet trivial hpoll fun _ => hQ _

theorem always_addU64 {Q : UInt64 → WorkerView → Prop} {a b : UInt64} (hI : I .overflow v)
    (hQ : Q (a + b) v) : handler.Always I Q (Task.addU64 a b) v := by
  by_cases h : a.toNat + b.toNat < 2 ^ 64
  · rw [Task.addU64_of_lt h]
    exact hQ
  · rw [Task.addU64_of_ge h]
    exact always_quiet trivial hI fun _ => hQ

/-- What an arm comes to: the loop goes on, or it is left. -/
def Turn (s : Session) (o : Option Unit) (v : WorkerView) : Prop :=
  o.elim (Idles s v) fun _ => Ends s v

/-- **Transfers** hand over the one request they stand for, unless they panic. -/
theorem always_transferArm {loc rem : TensorBlock} {opcode : WrOpcode}
    {op : Connection → IbvMr → UInt64 → UInt64 → UInt32 → Fallible Unit}
    (hop : Client.IsTransfer op opcode) (hsize : loc.size > 0)
    (hc : Client.requests s c = Client.transferRequests s opcode loc rem)
    (hrecords : Client.records c = []) (hgoes : c ≠ .disconnect)
    (h : Doing s c false false v) (hguard : v.guard = .none) :
    handler.Always (WorkerRule s) (Turn s) (Client.transferArm s op loc rem) v := by
  obtain ⟨name, what, hop⟩ := hop
  rw [Client.transferRequests, if_pos hsize] at hc
  cases hrem : s.remoteGpuBuffers.lookup rem.basePtr with
  | none =>
    rw [Client.transferArm_of_lookup_remote_none hrem]
    exact always_panic ⟨h.inTurn, hguard⟩
  | some conn =>
    cases hloc : s.localGpuBuffers.lookup loc.basePtr with
    | none =>
      rw [Client.transferArm_of_lookup_local_none hloc]
      exact always_panic ⟨h.inTurn, hguard⟩
    | some q =>
      simp only [hrem, hloc] at hc
      have hhanded := h.hand hc
      rw [Client.transferArm_of_lookup hrem hloc]
      refine (always_addU64 (Q := fun a v' => a = loc.basePtr + loc.offset ∧ v = v')
        ⟨h.inTurn, hguard⟩ ⟨rfl, rfl⟩).bind ?_
      rintro _ _ ⟨rfl, rfl⟩
      refine (always_addU64 (Q := fun a v' => a = conn.basePtr + rem.offset ∧ v = v')
        ⟨h.inTurn, hguard⟩ ⟨rfl, rfl⟩).bind ?_
      rintro _ _ ⟨rfl, rfl⟩
      rw [hop]
      refine (always_post (Q := fun _ v' => Doing s c true false v' ∧ v'.guard = .none)
        ⟨h.inTurn, trivial⟩ ⟨hhanded.inTurn, trivial⟩ fun _ => ⟨hhanded, hguard⟩).bind ?_
      rintro r v' ⟨hdoing, hguard⟩
      have hidles := (hdoing.recorded_of_nil hrecords).idles hguard hgoes
      cases r with
      | ok _ => exact hidles
      | error e => exact always_quiet trivial ⟨hdoing.inTurn, trivial⟩ fun _ => hidles

/-- **`Complete`** records its request and posts its announcement, unless that does not fit the
page. -/
theorem always_completeArm {reqId : ReqId} (h : Doing s (.complete reqId) false false v)
    (hguard : v.guard = .none) :
    handler.Always (WorkerRule s) (Turn s) (Client.completeArm s reqId) v := by
  by_cases hfits : (Client.announcement reqId).serializedSize ≤ cpuBufferBaseSize
  · have hrequests : Client.requests s (.complete reqId) = [Client.announcementWr s reqId] :=
      if_pos hfits
    have hrecords : Client.records (.complete reqId) = [reqId] := if_pos hfits
    rw [Client.completeArm_of_fits hfits]
    refine always_quiet trivial ⟨h.inTurn, trivial⟩ fun _ => ?_
    refine always_quiet trivial ⟨h.inTurn, trivial⟩ fun _ => ?_
    refine ⟨⟨h.inTurn, hguard⟩, ?_⟩
    intro choice seen v₁ h₁
    cases choice <;> cases h₁
    have hlocked := h.guarded (.locked seen)
    refine ⟨⟨hlocked.inTurn, seen, reqId, rfl, hlocked.due, rfl⟩, ?_⟩
    intro choice _ v₂ h₂
    cases choice <;> cases h₂
    have hstored := hlocked.record hrecords .stored
    have hhanded := hstored.hand hrequests
    refine (always_post (Q := fun _ v' => Doing s (.complete reqId) true true v' ∧
      v'.guard = .stored) ⟨hstored.inTurn, trivial⟩ ⟨hhanded.inTurn, trivial⟩
      fun _ => ⟨hhanded, rfl⟩).bind ?_
    rintro r v₃ ⟨hdoing, hguard⟩
    have hunlock : handler.Always (WorkerRule s) (Turn s)
        (Task.call .unlockReqs fun _ => .ret none) v₃ := by
      refine ⟨⟨hdoing.inTurn, hguard⟩, ?_⟩
      intro choice _ v₄ h₄
      cases choice <;> cases h₄
      exact (hdoing.guarded .none).idles rfl nofun
    refine always_quiet trivial ⟨hdoing.inTurn, trivial⟩ fun _ => ?_
    cases r with
    | ok _ => exact hunlock
    | error e => exact always_quiet trivial ⟨hdoing.inTurn, trivial⟩ fun _ => hunlock
  · rw [Client.completeArm_of_not_fits hfits]
    exact always_quiet trivial ⟨h.inTurn, trivial⟩ fun _ => always_panic ⟨h.inTurn, hguard⟩

/-- **`Disconnect`** posts the done notification. -/
theorem always_disconnectArm (h : Doing s .disconnect false false v) (hguard : v.guard = .none) :
    handler.Always (WorkerRule s) (Turn s) (Client.disconnectArm s) v := by
  have hhanded := h.hand rfl
  rw [Client.disconnectArm_eq]
  refine always_quiet trivial ⟨h.inTurn, trivial⟩ fun _ => ?_
  refine always_quiet trivial ⟨h.inTurn, trivial⟩ fun _ => ?_
  refine always_quiet trivial ⟨h.inTurn, trivial⟩ fun _ => ?_
  refine (always_post (Q := fun _ v' => Doing s .disconnect true false v' ∧ v'.guard = .none)
    ⟨h.inTurn, trivial⟩ ⟨hhanded.inTurn, trivial⟩ fun _ => ⟨hhanded, hguard⟩).bind ?_
  rintro r v' ⟨hdoing, hguard⟩
  cases r with
  | error e => exact always_panic ⟨hdoing.inTurn, hguard⟩
  | ok _ =>
    refine always_quiet trivial ⟨hdoing.inTurn, trivial⟩ fun r => ?_
    cases hcall : rdmaCall "rdma_disconnect" r with
    | ok _ =>
      simp only [Task.unwrap]
      exact hdoing.ends hguard
    | error e =>
      simp only [Task.unwrap, Task.panic_bind]
      exact always_panic ⟨hdoing.inTurn, hguard⟩

theorem always_arm (h : Doing s c false false v) (hguard : v.guard = .none) :
    handler.Always (WorkerRule s) (Turn s) (Client.arm s c) v := by
  cases c with
  | send loc rem =>
    have hgoes : Command.send loc rem ≠ .disconnect := by simp
    rw [Client.arm]
    split
    next hsize => exact always_transferArm Client.isTransfer_write hsize rfl rfl hgoes h hguard
    next hsize => exact ((h.handed_of_nil (if_neg hsize)).recorded_of_nil rfl).idles hguard hgoes
  | recv loc rem =>
    have hgoes : Command.recv loc rem ≠ .disconnect := by simp
    rw [Client.arm]
    split
    next hsize => exact always_transferArm Client.isTransfer_read hsize rfl rfl hgoes h hguard
    next hsize => exact ((h.handed_of_nil (if_neg hsize)).recorded_of_nil rfl).idles hguard hgoes
  | complete reqId => exact always_completeArm h hguard
  | disconnect => exact always_disconnectArm h hguard

/-- **The worker**, whatever its environment chooses: what it has done is told by the commands that
it has taken. -/
theorem always_worker (s : Session) (n : ℕ) :
    handler.Always (WorkerRule s) (Turn s) (Client.worker s n) .init := by
  have hinit : Idles s .init := ⟨rfl, rfl, nofun, rfl, rfl⟩
  refine Handler.Always.loop (J := Idles s) (R := fun _ => Ends s) (fun v hv => ?_) n hinit
  refine ⟨⟨hv.inTurn, hv.drained, hv.goes⟩, ?_⟩
  intro choice r v' hr
  cases choice <;> cases hr
  cases r with
  | some c => exact always_arm (hv.took c) hv.guard
  | none => exact hv.ends

end WorkerView

end RdmaTransport
