import RdmaTransport.Internal.Run
import RdmaTransport.Vllm.Server

/-!
# The server's thread

What one connection's handler does to the page and the table it is given. Its view follows one
receive at a time: posted, completed, and the page read. What the environment decides is what a
call returns, which completion a poll hands out, and what is in the page when it is read.

## Main definitions

* `ServerView`, `ServerView.handler` — the view and the environment's choices
* `ServerView.isComplete` — `VllmRdmaServer::is_complete`
* `ServerRule` — what each operation finds

## Main results

* `always_serverHandler` — the handler decodes only what it has polled and read, and records only
  what it has decoded
-/

namespace RdmaTransport

open Interaction

/-! ### The view -/

/-- How far the handler is with its current receive. -/
inductive RecvStage
  /-- None is posted. -/
  | idle
  /-- It is posted. -/
  | waiting
  /-- It has completed. -/
  | polled (wc : IbvWc)
  /-- It has completed, and the page has been read. -/
  | read (wc : IbvWc) (page : Page)

/-- What the handler shares with the rest of the server, and what has happened. -/
structure ServerView where
  /-- The table. -/
  reqs : CompletionReqs
  /-- Whether the handler holds the table's lock. -/
  locked : Bool
  /-- Its current receive. -/
  stage : RecvStage
  /-- The notifications `handle_notification` has returned. -/
  decoded : List Notification

namespace ServerView

/-- Right after `accept`. -/
def init : ServerView := ⟨.new 1024, false, .idle, []⟩

/-- `VllmRdmaServer::is_complete`: `try_read` fails while the lock is held. -/
def isComplete (v : ServerView) (req : ReqId) : Bool := !v.locked && v.reqs.isReqComplete req

/-- What the environment decides. -/
inductive Choice
  /-- A call returns this. -/
  | ret (r : CRet)
  /-- `poll_cq` gives this back. -/
  | polled (p : PollRet)
  /-- The page is this when it is read. -/
  | page (p : Page)
  /-- Go on. -/
  | go

variable (v : ServerView)

/-- A receive has been posted. -/
def posted : ServerView := { v with stage := .waiting }

/-- A poll has returned. A receive that it hands no completion of is still posted. -/
def polled : PollRet → ServerView
  | .entry wc => { v with stage := .polled wc }
  | _ => v

/-- The page has been read. -/
def sawPage (page : Page) : ServerView :=
  match v.stage with
  | .polled wc => { v with stage := .read wc page }
  | _ => v

/-- Something has been recorded. -/
def note : Observation → ServerView
  | .decoded n => { v with stage := .idle, decoded := v.decoded ++ [n] }
  | _ => v

/-- The environment of the handler. An operation that is not answered has not returned yet. -/
def handler : Handler iface ServerView Choice
  | .ibvPostRecv _, v, .ret r => some (r, if r.isOk then v.posted else v)
  | .ibvPollCq .recv, v, .polled p => some (p, v.polled p)
  | .readPage _, v, .page page => some (page, v.sawPage page)
  | .observe o, v, .go => some ((), v.note o)
  | .lockReqs, v, .go => some (v.reqs, { v with locked := true })
  | .putReqs reqs, v, .go => some ((), { v with reqs := reqs })
  | .unlockReqs, v, .go => some ((), { v with locked := false })
  | .rdmaDisconnect, v, .ret r => some (r, v)
  | _, _, _ => none

end ServerView

/-! ### What each operation finds -/

/-- The notification is what the page decoded to, or the default one of a completion that carries
no immediate. -/
def Yields (stage : RecvStage) (n : Notification) : Prop :=
  (∃ wc page, stage = .read wc page ∧ ∃ h : (ntohl wc.immData).toNat ≤ cpuBufferBaseSize,
    Notification.deserialize (page.slice (ntohl wc.immData).toNat h) = .ok n) ∨
  ∃ wc, stage = .polled wc ∧ wc.opcode ≠ ibvWcRecvRdmaWithImm ∧ n = .zero

/-- Every request in the table has been decoded. -/
def Listed (v : ServerView) : Prop :=
  ∀ req, v.reqs.isReqComplete req = true → ∃ n ∈ v.decoded, n.reqId = some req

/-- A receive is posted when there is none, polled when it is posted, and the page is read once the
completion of a write with immediate has been polled. What is decoded is what was read. -/
def ServerRule (op : Op) (v : ServerView) : Prop :=
  Listed v ∧
    match op with
    | .ibvPostRecv _ => v.stage = .idle
    | .ibvPollCq .recv => v.stage = .waiting
    | .readPage _ => ∃ wc, v.stage = .polled wc ∧ wc.opcode = ibvWcRecvRdmaWithImm
    | .observe (.decoded n) => Yields v.stage n
    | _ => True

section Rules

variable {v : ServerView} {cpuMr : IbvMr} {cpuBuffer : MemBuffer}

theorem serverRule_panic {α : Type} {Q : α → ServerView → Prop} {msg : String} (h : Listed v) :
    ServerView.handler.Always ServerRule Q (Task.panic msg) v :=
  ⟨⟨h, trivial⟩, fun _ r => r.elim⟩

/-- What is decoded is what has been read. -/
theorem always_decodePage (hv : Listed v) {wc : IbvWc} {page : Page}
    (hstage : v.stage = .read wc page) :
    ServerView.handler.Always ServerRule
      (fun r v' => Listed v' ∧ ∀ n, r = .ok n → Yields v'.stage n)
      (Server.decodePage page wc) v := by
  rw [Server.decodePage]
  split
  next hle =>
    refine ⟨hv, fun n hn => .inl ⟨wc, page, hstage, hle, ?_⟩⟩
    cases hdec : Notification.deserialize (page.slice (ntohl wc.immData).toNat hle) with
    | error err => rw [hdec] at hn; cases hn
    | ok m => rw [hdec] at hn; cases hn; rfl
  · exact serverRule_panic hv

/-- **`handle_notification`** returns only what it has polled and read. -/
theorem always_handleNotification (hv : Listed v) (hidle : v.stage = .idle) :
    ServerView.handler.Always ServerRule
      (fun r v' => Listed v' ∧ ∀ n, r = .ok n → Yields v'.stage n)
      (Server.handleNotification cpuMr cpuBuffer).run v := by
  rw [Server.run_handleNotification]
  refine ⟨⟨hv, hidle⟩, ?_⟩
  intro choice r v₁ hr
  cases choice <;> cases hr
  cases hok : CRet.isOk r with
  | false =>
    obtain ⟨e, he⟩ := rdmaCall_of_not_isOk "ibv_post_recv" hok
    simp only [he, Bool.false_eq_true, if_false]
    exact ⟨hv, nofun⟩
  | true =>
    simp only [rdmaCall_of_isOk hok, if_true]
    refine ⟨⟨hv, rfl⟩, ?_⟩
    intro choice p v₂ hp
    cases choice <;> cases hp
    cases p with
    | notFound => exact ⟨hv, nofun⟩
    | negative code => exact ⟨hv, nofun⟩
    | entry wc =>
      by_cases hwc : wc.status = ibvWcSuccess
      · simp only [compResult_entry_of_success hwc]
        by_cases hop : wc.opcode = ibvWcRecvRdmaWithImm
        · simp only [hop, if_true]
          refine ⟨⟨hv, wc, rfl, hop⟩, ?_⟩
          intro choice page v₃ hpage
          cases choice <;> cases hpage
          refine always_decodePage ?_ rfl
          exact hv
        · simp only [hop, if_false]
          refine ⟨hv, fun n hn => .inr ⟨wc, rfl, hop, ?_⟩⟩
          cases hn
          rfl
      · obtain ⟨e, he⟩ := compResult_entry_of_failed "handle_request" "poll_recv_comp" hwc
        simp only [he]
        exact ⟨hv, nofun⟩

theorem listed_decoded (hv : Listed v) (n : Notification) : Listed (v.note (.decoded n)) := by
  intro req hreq
  obtain ⟨m, hm, hmreq⟩ := hv req hreq
  exact ⟨m, List.mem_append_left _ hm, hmreq⟩

theorem listed_record (hv : Listed v) {n : Notification} {req : ReqId} (hn : n ∈ v.decoded)
    (hreq : n.reqId = some req) :
    Listed { v with locked := true, reqs := v.reqs.record req } := by
  intro req' hreq'
  rcases CompletionReqs.isReqComplete_of_record hreq' with rfl | hold
  · exact ⟨n, hn, hreq⟩
  · exact hv req' hold

/-- What a pass does with a notification: a request of it is recorded. -/
theorem always_handlerTail (hv : Listed v) {n : Notification} (hyields : Yields v.stage n) :
    ServerView.handler.Always ServerRule
      (fun o v' => o.elim (Listed v' ∧ v'.stage = .idle) fun _ => Listed v')
      (Server.handlerTail n) v := by
  refine ⟨⟨hv, hyields⟩, ?_⟩
  intro choice _ v₁ h
  cases choice <;> cases h
  have hv₁ : Listed (v.note (.decoded n)) := listed_decoded hv n
  by_cases hdone : n.done > 0
  · rw [if_pos hdone]
    refine ⟨⟨hv₁, trivial⟩, ?_⟩
    intro choice _ v₂ h
    cases choice <;> cases h
    exact hv₁
  · rw [if_neg hdone]
    cases hreq : n.reqId with
    | none => exact ⟨hv₁, rfl⟩
    | some req =>
      refine ⟨⟨hv₁, trivial⟩, ?_⟩
      intro choice _ v₂ h
      cases choice <;> cases h
      refine ⟨⟨hv₁, trivial⟩, ?_⟩
      intro choice _ v₃ h
      cases choice <;> cases h
      have hv₃ := listed_record hv₁ (List.mem_append_right _ (List.mem_singleton_self n)) hreq
      refine ⟨⟨hv₃, trivial⟩, ?_⟩
      intro choice _ v₄ h
      cases choice <;> cases h
      exact ⟨hv₃, rfl⟩

/-- One pass of the loop: between two passes no receive is posted. -/
theorem always_handlerIteration (hv : Listed v) (hidle : v.stage = .idle) :
    ServerView.handler.Always ServerRule
      (fun o v' => o.elim (Listed v' ∧ v'.stage = .idle) fun _ => Listed v')
      (Server.handlerIteration cpuMr cpuBuffer) v := by
  rw [Server.handlerIteration_eq]
  refine (always_handleNotification hv hidle).bind ?_
  rintro r v₁ ⟨hv₁, hyields⟩
  cases r with
  | error e => exact serverRule_panic hv₁
  | ok n => exact always_handlerTail hv₁ (hyields n rfl)

/-- **The handler**, for any number of passes. -/
theorem always_serverHandler (cpuMr : IbvMr) (cpuBuffer : MemBuffer) (n : ℕ) (hv : Listed v)
    (hidle : v.stage = .idle) :
    ServerView.handler.Always ServerRule (fun _ => Listed)
      (Server.handler cpuMr cpuBuffer n) v := by
  rw [Server.handler_eq]
  refine (Handler.Always.loop (J := fun v => Listed v ∧ v.stage = .idle) (R := fun _ => Listed)
    (fun v hv => always_handlerIteration hv.1 hv.2) n ⟨hv, hidle⟩).bind ?_
  intro o v₁ hv₁
  cases o with
  | none => exact hv₁.1
  | some _ =>
    have hv₁ : Listed v₁ := hv₁
    refine ⟨⟨hv₁, trivial⟩, ?_⟩
    intro choice r v₂ h
    cases choice <;> cases h
    cases hcall : rdmaCall "rdma_disconnect" r with
    | ok _ =>
      simp only [hcall, Task.unwrap]
      exact hv₁
    | error e =>
      simp only [hcall, Task.unwrap, Task.panic_bind]
      exact serverRule_panic hv₁

end Rules

end RdmaTransport
