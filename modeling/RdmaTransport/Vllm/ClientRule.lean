import RdmaTransport.Vllm.ClientThread

/-!
# The order in which the worker does things

As long as no poll fails, the worker has at most one work request outstanding, posts an announcement
only from a page that holds it, and leaves the page alone until its completion has been polled. If
moreover every transfer succeeds that has a `Complete` behind it in the queue, all transfers queued
before a `Complete` have succeeded when its request is written into the page or recorded.

## Main definitions

* `transfersSucceed` — what is asked of the environment
* `Accounted`, `ClientRule` — what each operation finds

## Main results

* `always_clientWorker` — the worker follows the rule
-/

namespace RdmaTransport

open Interaction

namespace Command

/-- The command moves bytes: a transfer of positive size. -/
def Moves : Command → Prop
  | send loc _ => loc.size > 0
  | recv loc _ => loc.size > 0
  | _ => False

instance : DecidablePred Moves
  | send loc _ => inferInstanceAs (Decidable (loc.size > 0))
  | recv loc _ => inferInstanceAs (Decidable (loc.size > 0))
  | complete _ => inferInstanceAs (Decidable False)
  | disconnect => inferInstanceAs (Decidable False)

/-- The request the command completes. -/
def reqId : Command → Option ReqId
  | complete req => some req
  | _ => none

end Command

/-- Nothing in the queue waits for the current command: it is an announcement, which the worker
makes while its page is in use, or no `Complete` is queued behind it. -/
def ClientView.unawaited (v : ClientView) : Bool :=
  v.stage != .idle || v.queue.all fun c => c.reqId.isNone

/-- No poll fails, and the work request of every transfer that has a `Complete` behind it is
accepted and succeeds. The others, and all announcements, may be refused or end with any status. -/
def transfersSucceed : (op : Op) → ClientView → ClientView.Choice → Bool
  | .ibvPostSend _, v, .ret r => v.unawaited || CRet.isOk r
  | .ibvPollCq .send, v, .polled p =>
    match p with
    | .entry wc => v.unawaited || wc.status == ibvWcSuccess
    | _ => false
  | _, _, _ => true

/-- The command with number `k + 1` has moved its bytes, or no `Complete` comes after it. -/
def Settled (cmds : List Command) (v : ClientView) (k : ℕ) : Prop :=
  k + 1 ∈ v.succeeded ∨ ∀ j c, k < j → cmds[j]? = some c → c.reqId = none

/-- `Complete(req)` is in the queue, and all transfers before it have succeeded. -/
def Accounted (cmds : List Command) (v : ClientView) (req : ReqId) : Prop :=
  ∃ m, cmds[m]? = some (.complete req) ∧
    ∀ k c, k < m → cmds[k]? = some c → c.Moves → k + 1 ∈ v.succeeded

/-- Every request that has been put into the page or recorded is accounted for. -/
def Backed (cmds : List Command) (v : ClientView) : Prop :=
  (∀ n ∈ v.wrote, ∀ req, n.reqId = some req → Accounted cmds v req) ∧
    ∀ req, v.reqs.isReqComplete req = true → Accounted cmds v req

/-- The page is written when it is free, holds what the bytes written to it say, is posted when it
holds a notification that fits, and a poll finds just one request outstanding. -/
def ClientRule (cmds : List Command) (op : Op) (v : ClientView) : Prop :=
  Backed cmds v ∧
    match op with
    | .writePage _ _ => v.stage = .idle ∧ v.outstanding = []
    | .observe (.wrote n) => v.stage = .written n.serialize ∧ v.outstanding = [] ∧
        n.serializedSize ≤ cpuBufferBaseSize
    | .ibvPostSend wr => v.outstanding = [] ∧
        ((v.stage = .idle ∧ wr.opcode ≠ .rdmaWriteWithImm) ∨
          ∃ n, v.stage = .ready n ∧ wr.opcode = .rdmaWriteWithImm ∧
            wr.immData = htonl (UInt16.ofNat n.serializedSize).toUInt32)
    | .ibvPollCq .send => v.outstanding = [v.taken] ∧
        (v.stage = .idle ∨ ∃ n, v.stage = .posted n)
    | _ => True

/-- Between two commands. -/
structure Between (cmds : List Command) (v : ClientView) : Prop where
  /-- The page is free. -/
  stage : v.stage = .idle
  /-- Nothing is outstanding. -/
  outstanding : v.outstanding = []
  /-- The rest of the queue. -/
  queue : v.queue = cmds.drop v.taken
  /-- The transfers taken so far have succeeded. -/
  moved : ∀ k c, k < v.taken → cmds[k]? = some c → c.Moves → Settled cmds v k
  /-- And what was written and recorded is accounted for. -/
  backed : Backed cmds v

/-- During the command with number `m + 1`. -/
structure During (cmds : List Command) (m : ℕ) (v : ClientView) : Prop where
  /-- The number of the command. -/
  taken : v.taken = m + 1
  /-- The rest of the queue. -/
  queue : v.queue = cmds.drop (m + 1)
  /-- The transfers before it have succeeded. -/
  moved : ∀ k c, k < m → cmds[k]? = some c → c.Moves → Settled cmds v k
  /-- And what was written and recorded is accounted for. -/
  backed : Backed cmds v

section Rules

variable {cmds : List Command} {v v' : ClientView} {m : ℕ} {c : Command}

theorem Accounted.mono {req : ReqId} (h : Accounted cmds v req)
    (hv : ∀ k ∈ v.succeeded, k ∈ v'.succeeded) : Accounted cmds v' req := by
  obtain ⟨m, hm, hbefore⟩ := h
  exact ⟨m, hm, fun k c hk hc hmoves => hv _ (hbefore k c hk hc hmoves)⟩

theorem Backed.mono (h : Backed cmds v) (hwrote : v'.wrote = v.wrote) (hreqs : v'.reqs = v.reqs)
    (hv : ∀ k ∈ v.succeeded, k ∈ v'.succeeded) : Backed cmds v' := by
  refine ⟨fun n hn req hreq => ?_, fun req hreq => ?_⟩
  · exact (h.1 n (hwrote ▸ hn) req hreq).mono hv
  · exact (h.2 req (hreqs ▸ hreq)).mono hv

theorem During.mono (h : During cmds m v) (htaken : v'.taken = v.taken)
    (hqueue : v'.queue = v.queue) (hwrote : v'.wrote = v.wrote) (hreqs : v'.reqs = v.reqs)
    (hv : ∀ k ∈ v.succeeded, k ∈ v'.succeeded) : During cmds m v' where
  taken := htaken.trans h.taken
  queue := hqueue.trans h.queue
  moved k c hk hc hmoves := (h.moved k c hk hc hmoves).imp_left (hv _)
  backed := h.backed.mono hwrote hreqs hv

/-- The current command is over: if it moves bytes, it has. -/
theorem During.between (h : During cmds m v) (hc : cmds[m]? = some c)
    (hdone : c.Moves → Settled cmds v m) (hstage : v.stage = .idle)
    (hout : v.outstanding = []) : Between cmds v where
  stage := hstage
  outstanding := hout
  queue := by rw [h.queue, h.taken]
  moved k d hk hd hmoves := by
    rw [h.taken] at hk
    rcases Nat.lt_succ_iff_lt_or_eq.mp hk with hk | rfl
    · exact h.moved k d hk hd hmoves
    · rw [hc] at hd
      cases hd
      exact hdone hmoves
  backed := h.backed

/-- The current command is `Complete(req)`, so `req` is accounted for. -/
theorem During.accounted {req : ReqId} (h : During cmds m v)
    (hc : cmds[m]? = some (.complete req)) : Accounted cmds v req := by
  refine ⟨m, hc, ?_⟩
  intro k c hk hck hmoves
  rcases h.moved k c hk hck hmoves with hmem | hnone
  · exact hmem
  · cases hnone m _ hk hc

/-- No `Complete` is left in the queue, so nothing comes after the current command. -/
theorem During.settled_of_unawaited (h : During cmds m v) (hstage : v.stage = .idle)
    (hun : v.unawaited = true) (v' : ClientView) : Settled cmds v' m := by
  refine .inr ?_
  intro j c hj hc
  have hall : ∀ c ∈ v.queue, c.reqId = none := by
    simpa [ClientView.unawaited, hstage] using hun
  refine hall c ?_
  rw [h.queue]
  refine List.mem_iff_getElem?.mpr ⟨j - (m + 1), ?_⟩
  rw [List.getElem?_drop, Nat.add_sub_cancel' hj, hc]

/-- A success completion counts for the command that posted the request. -/
theorem mem_succeeded_completed {k : ℕ} {rest : List ℕ} {wc : IbvWc}
    (hwc : wc.status = ibvWcSuccess) : k ∈ (v.completed k rest wc).succeeded := by
  simp [ClientView.completed, hwc]

theorem succeeded_subset_completed {k : ℕ} {rest : List ℕ} {wc : IbvWc} :
    ∀ j ∈ v.succeeded, j ∈ (v.completed k rest wc).succeeded := by
  intro j hj
  rw [ClientView.completed]
  split
  · exact List.mem_append_left _ hj
  · exact hj

theorem outstanding_accepted (hout : v.outstanding = []) : v.accepted.outstanding = [v.taken] := by
  simp [ClientView.accepted, hout]

/-! ### One operation -/

/-- **A transfer** ends, its request is its own, and it has succeeded if that is awaited. -/
theorem rule_transfer {wr : IbvSendWr} {name what : String} (h : During cmds m v)
    (hstage : v.stage = .idle) (hout : v.outstanding = []) (hwr : wr.opcode ≠ .rdmaWriteWithImm) :
    (Handler.within ClientView.handler transfersSucceed).Always (ClientRule cmds)
      (fun _ v' => During cmds m v' ∧ v'.stage = .idle ∧ v'.outstanding = [] ∧ Settled cmds v' m)
      (postAndPoll wr name what).run v := by
  have hacc : v.accepted.stage = .idle := by simp [ClientView.accepted, hstage, Stage.post]
  have houtacc := outstanding_accepted hout
  have hunacc : v.accepted.unawaited = v.unawaited := by
    rw [ClientView.unawaited, ClientView.unawaited, hacc, hstage, ClientView.accepted]
  refine always_postAndPoll ⟨h.backed, hout, .inl ⟨hstage, hwr⟩⟩ ?_ ?_ ?_ ?_
  · intro r hr hg e
    have hun : v.unawaited = true := by simpa [transfersSucceed, hr] using hg
    exact ⟨h.mono rfl rfl rfl rfl fun _ => id,
      by simp [ClientView.refused, hstage, Stage.refuse], hout,
      h.settled_of_unawaited hstage hun _⟩
  · exact fun _ _ _ => ⟨h.backed, houtacc, .inl hacc⟩
  · intro p hp hg
    cases p with
    | entry wc => exact absurd rfl (hp wc)
    | _ => simp [transfersSucceed] at hg
  · intro wc k rest hk hg
    rw [houtacc] at hk
    cases hk
    have hidle : (v.accepted.completed v.taken [] wc).stage = .idle := by
      simp [ClientView.completed, hacc, Stage.complete]
    have hduring : During cmds m (v.accepted.completed v.taken [] wc) :=
      h.mono rfl rfl rfl rfl (succeeded_subset_completed (v := v.accepted))
    refine ⟨fun hwc => ⟨hduring, hidle, rfl, .inl ?_⟩, fun hwc _ => ⟨hduring, hidle, rfl, ?_⟩⟩
    · rw [← h.taken]
      exact mem_succeeded_completed hwc
    · have hun : v.accepted.unawaited = true := by simpa [transfersSucceed, hwc] using hg
      exact h.settled_of_unawaited hstage (hunacc ▸ hun) _

/-- **An announcement** may fail, but then it is over too. -/
theorem rule_announce {wr : IbvSendWr} {name what : String} {n : Notification} (h : During cmds m v)
    (hstage : v.stage = .ready n) (hout : v.outstanding = []) (hop : wr.opcode = .rdmaWriteWithImm)
    (himm : wr.immData = htonl (UInt16.ofNat n.serializedSize).toUInt32) :
    (Handler.within ClientView.handler transfersSucceed).Always (ClientRule cmds)
      (fun _ v' => During cmds m v' ∧ v'.stage = .idle ∧ v'.outstanding = [])
      (postAndPoll wr name what).run v := by
  have hacc : v.accepted.stage = .posted n := by simp [ClientView.accepted, hstage, Stage.post]
  have houtacc := outstanding_accepted hout
  have hover (wc : IbvWc) : During cmds m (v.accepted.completed v.taken [] wc) ∧
      (v.accepted.completed v.taken [] wc).stage = .idle ∧
      (v.accepted.completed v.taken [] wc).outstanding = [] :=
    ⟨h.mono rfl rfl rfl rfl (succeeded_subset_completed (v := v.accepted)),
      by simp [ClientView.completed, hacc, Stage.complete], rfl⟩
  refine always_postAndPoll ⟨h.backed, hout, .inr ⟨n, hstage, hop, himm⟩⟩ ?_ ?_ ?_ ?_
  · intro r _ _ e
    exact ⟨h.mono rfl rfl rfl rfl fun _ => id, by simp [ClientView.refused, hstage, Stage.refuse],
      hout⟩
  · exact fun _ _ _ => ⟨h.backed, houtacc, .inr ⟨n, hacc⟩⟩
  · intro p hp hg
    cases p with
    | entry wc => exact absurd rfl (hp wc)
    | _ => simp [transfersSucceed] at hg
  · intro wc k rest hk _
    rw [houtacc] at hk
    cases hk
    exact ⟨fun _ => hover wc, fun _ _ => hover wc⟩

/-! ### The arms -/

theorem rule_transferArm {s : Session} {loc rem : TensorBlock} {opcode : WrOpcode}
    {op : Connection → IbvMr → UInt64 → UInt64 → UInt32 → Fallible Unit}
    (hop : Client.IsTransfer op opcode) (hopcode : opcode ≠ .rdmaWriteWithImm)
    (h : During cmds m v) (hc : cmds[m]? = some c) (hstage : v.stage = .idle)
    (hout : v.outstanding = []) :
    (Handler.within ClientView.handler transfersSucceed).Always (ClientRule cmds)
      (fun o v' => o.elim (Between cmds v') fun _ => Backed cmds v')
      (Client.transferArm s op loc rem) v :=
  always_transferArm hop ⟨h.backed, trivial⟩ (fun _ => ⟨h.backed, trivial⟩)
    (fun _ _ _ hwr => rule_transfer h hstage hout (hwr ▸ hopcode))
    fun _ _ ⟨hd, hs, ho, hm⟩ => ⟨hd.between hc (fun _ => hm) hs ho, fun _ => ⟨hd.backed, trivial⟩⟩

theorem rule_completeArm (s : Session) {req : ReqId} (h : During cmds m v)
    (hc : cmds[m]? = some (.complete req)) (hstage : v.stage = .idle) (hout : v.outstanding = []) :
    (Handler.within ClientView.handler transfersSucceed).Always (ClientRule cmds)
      (fun o v' => o.elim (Between cmds v') fun _ => Backed cmds v')
      (Client.completeArm s req) v := by
  have hwrote : Backed cmds (v.announcing (Client.announcement req)) := by
    refine ⟨fun n hn req' hreq' => ?_, h.backed.2⟩
    rcases List.mem_append.mp hn with hn | hn
    · exact h.backed.1 n hn req' hreq'
    · cases List.mem_singleton.mp hn
      cases hreq'
      exact h.accounted hc
  have hrecorded : Backed cmds ((v.announcing (Client.announcement req)).recorded req) := by
    refine ⟨hwrote.1, ?_⟩
    intro req' hreq'
    rcases CompletionReqs.isReqComplete_of_record hreq' with rfl | hold
    · exact h.accounted hc
    · exact h.backed.2 req' hold
  have hduring : During cmds m ((v.announcing (Client.announcement req)).recorded req) :=
    ⟨h.taken, h.queue, h.moved, hrecorded⟩
  refine always_completeArm ⟨h.backed, hstage, hout⟩ (fun _ _ => ⟨h.backed, trivial⟩)
    (fun hfits => ⟨h.backed, rfl, hout, hfits⟩) ⟨hwrote, trivial⟩ ⟨hwrote, trivial⟩
    (rule_announce hduring rfl hout rfl rfl) ?_
  rintro r v' ⟨hd, hs, ho⟩
  have htold : During cmds m (v'.told req r) := hd.mono rfl rfl rfl rfl fun _ => id
  exact ⟨⟨hd.backed, trivial⟩, fun _ => ⟨hd.backed, trivial⟩, ⟨hd.backed, trivial⟩,
    htold.between hc nofun hs ho⟩

theorem rule_disconnectArm (s : Session) (h : During cmds m v) (hstage : v.stage = .idle)
    (hout : v.outstanding = []) :
    (Handler.within ClientView.handler transfersSucceed).Always (ClientRule cmds)
      (fun o v' => o.elim (Between cmds v') fun _ => Backed cmds v')
      (Client.disconnectArm s) v := by
  have hsize : Notification.complete.serializedSize = 5 := Notification.serializedSize_none 1
  have hwrote : Backed cmds (v.announcing .complete) := by
    refine ⟨fun n hn req' hreq' => ?_, h.backed.2⟩
    rcases List.mem_append.mp hn with hn | hn
    · exact h.backed.1 n hn req' hreq'
    · cases List.mem_singleton.mp hn
      cases hreq'
  have hduring : During cmds m (v.announcing .complete) := ⟨h.taken, h.queue, h.moved, hwrote⟩
  refine always_disconnectArm ⟨h.backed, trivial⟩ ⟨h.backed, hstage, hout⟩
    ⟨h.backed, rfl, hout, by rw [hsize]; decide⟩
    (rule_announce (n := .complete) hduring rfl hout rfl (by rw [hsize]; rfl)) ?_
  exact fun _ _ ⟨hd, _, _⟩ => ⟨fun _ => ⟨hd.backed, trivial⟩, ⟨hd.backed, trivial⟩, hd.backed⟩

theorem rule_arm (s : Session) (h : During cmds m v) (hc : cmds[m]? = some c)
    (hstage : v.stage = .idle) (hout : v.outstanding = []) :
    (Handler.within ClientView.handler transfersSucceed).Always (ClientRule cmds)
      (fun o v' => o.elim (Between cmds v') fun _ => Backed cmds v') (Client.arm s c) v := by
  cases c with
  | send loc rem =>
    rw [Client.arm]
    split
    · exact rule_transferArm Client.isTransfer_write (by decide) h hc hstage hout
    next hsize => exact h.between hc (fun hmoves => absurd hmoves hsize) hstage hout
  | recv loc rem =>
    rw [Client.arm]
    split
    · exact rule_transferArm Client.isTransfer_read (by decide) h hc hstage hout
    next hsize => exact h.between hc (fun hmoves => absurd hmoves hsize) hstage hout
  | complete req => exact rule_completeArm s h hc hstage hout
  | disconnect => exact rule_disconnectArm s h hstage hout

/-- **The worker follows the rule**, on any queue and for any number of commands. -/
theorem always_clientWorker (s : Session) (cmds : List Command) (n : ℕ) :
    (Handler.within ClientView.handler transfersSucceed).Always (ClientRule cmds)
      (fun _ => Backed cmds) (Client.worker s n) (.init cmds) := by
  have hbacked : Backed cmds (.init cmds) := by
    refine ⟨fun n hn => ?_, fun req hreq => ?_⟩
    · cases hn
    · simp [ClientView.init, CompletionReqs.new, CompletionReqs.isReqComplete] at hreq
  have hinit : Between cmds (.init cmds) :=
    ⟨rfl, rfl, rfl, fun _ _ hk => absurd hk (Nat.not_lt_zero _), hbacked⟩
  refine (always_worker n hinit (fun v hv => ⟨hv.backed, trivial⟩) (fun v c cs hv hqueue => ?_)
    fun v hv _ => hv.backed).mono fun o v h => ?_
  · have hdrop : cmds.drop v.taken = c :: cs := hv.queue.symm.trans hqueue
    have hc : cmds[v.taken]? = some c := by
      rw [← List.head?_drop, hdrop, List.head?_cons]
    have hcs : cs = cmds.drop (v.taken + 1) := by
      rw [← List.drop_drop, hdrop, List.drop_one, List.tail_cons]
    exact rule_arm s ⟨rfl, hcs, hv.moved, hv.backed⟩ hc hv.stage hv.outstanding
  · cases o with
    | none => exact h.backed
    | some _ => exact h

end Rules

end RdmaTransport
