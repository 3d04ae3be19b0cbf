import RdmaTransport.Footprints
import RdmaTransport.Internal.Books

/-!
# How much is outstanding on a queue pair

Both sides create their queue pair with `max_send_wr = 1` and `max_recv_wr = 1`, so a second request
posted before the completion of the first has been polled is one too many. Nothing counts. The
server's task never comes to it: whatever the card does, a request is posted only when its queue is
empty, and a queue is polled only when one request is outstanding on it, so every completion the
task polls is that of the request it has just posted. `connect` keeps to this as well, and hands an
empty queue pair to the worker, which never posts a receive.

## Main definitions

* `QueuePair`, `QueuePair.after` — the outstanding requests
* `Paired` — when an operation may use them

## Main results

* `Server.shallow_of_handlerTask` — the server's task, in every state it reaches
* `Client.shallow_of_connect` — the client's handshake, in every state it reaches
-/

namespace RdmaTransport

open Interaction

/-! ### The queue pair -/

/-- How many requests have been posted and their completions not been polled. -/
structure QueuePair where
  /-- On the send queue. -/
  sends : ℕ
  /-- On the receive queue. -/
  recvs : ℕ
  deriving DecidableEq, Repr

namespace QueuePair

/-- Nothing is outstanding. -/
def empty : QueuePair := ⟨0, 0⟩

/-- What an answered operation does. A post counts if it is accepted; a completion is handed out
only for a request that is outstanding. -/
def after (op : Op) (r : op.Ans) (q : QueuePair) : Option QueuePair :=
  match op, r with
  | .ibvPostSend _, r => some (if CRet.isOk r then { q with sends := q.sends + 1 } else q)
  | .ibvPostRecv _, r => some (if CRet.isOk r then { q with recvs := q.recvs + 1 } else q)
  | .ibvPollCq .send, .entry _ => if q.sends = 0 then none else some { q with sends := q.sends - 1 }
  | .ibvPollCq .recv, .entry _ => if q.recvs = 0 then none else some { q with recvs := q.recvs - 1 }
  | _, _ => some q

/-- A card that does anything at all with the requests that are outstanding. -/
abbrev handler : Handler iface QueuePair (Answers iface) := Handler.booked after

end QueuePair

/-- The card is asked to send `length` bytes inline at most. -/
def InlineAtMost (length : ℕ) (wr : IbvSendWr) : Prop :=
  wr.isInline = true → wr.sge.length.toNat ≤ length

/-- A request is posted when nothing is outstanding on its queue, and a queue is polled when one
request is outstanding on it. -/
def Paired (op : Op) (q : QueuePair) : Prop :=
  match op with
  | .ibvPostSend wr => q.sends = 0 ∧ InlineAtMost Connection.sizeOf wr
  | .ibvPostRecv _ => q.recvs = 0
  | .ibvPollCq .send => q.sends = 1
  | .ibvPollCq .recv => q.recvs = 1
  | _ => True

/-- The operations that have nothing to do with the queues. -/
def OffQueue : Op → Prop
  | .ibvPostSend _ | .ibvPostRecv _ | .ibvPollCq _ => False
  | _ => True

theorem paired_of_offQueue {op : Op} {q : QueuePair} (h : OffQueue op) : Paired op q := by
  cases op <;> first | exact h.elim | trivial

theorem after_of_offQueue {op : Op} {r : op.Ans} {q q' : QueuePair} (h : OffQueue op)
    (hr : QueuePair.after op r q = some q') : q' = q := by
  cases op <;> first | exact h.elim | cases hr; rfl

/-- An inline send of a `Connection`. -/
theorem inlineAtMost_connection {wr : IbvSendWr}
    (h : wr.sge.length = UInt32.ofNat Connection.sizeOf) : InlineAtMost Connection.sizeOf wr := by
  intro _
  rw [h]
  decide

/-- A request that is not inline. -/
theorem inlineAtMost_signaled {n : ℕ} {wr : IbvSendWr} (h : wr.sendFlags = ibvSendSignaled) :
    InlineAtMost n wr := by
  intro hinline
  rw [IbvSendWr.isInline, h] at hinline
  exact absurd hinline (by decide)

section Rules

variable {α : Type} {q : QueuePair} {cq : Cq} {op what : String}

/-- A part of a task that has nothing to do with the queues. -/
theorem always_offQueue {p : Task α} (hp : p.Only OffQueue) :
    QueuePair.handler.Always Paired (fun _ q' => q' = q) p q :=
  Handler.Always.frame hp (fun _ => paired_of_offQueue) fun _ _ _ => after_of_offQueue

/-- A part of a function that has nothing to do with the queues. -/
theorem ensures_offQueue {p : Fallible α} (hp : p.run.Only OffQueue) :
    p.Ensures QueuePair.handler Paired (fun _ q' => q' = q) q :=
  (always_offQueue hp).mono fun _ _ h _ _ => h

theorem ensures_postSend {wr : IbvSendWr} (hq : q.sends = 0)
    (hinline : InlineAtMost Connection.sizeOf wr) :
    (ibvPostSend wr).Ensures QueuePair.handler Paired (fun _ q' => q' = ⟨1, q.recvs⟩) q := by
  refine Handler.always_booked_vis ⟨hq, hinline⟩ ?_
  intro r q' hr a ha
  cases hr
  cases hok : CRet.isOk r with
  | true => rw [if_pos rfl, hq]
  | false =>
    obtain ⟨e, he⟩ := rdmaCall_of_not_isOk "ibv_post_send" hok
    rw [he] at ha
    cases ha

theorem ensures_postRecv {wr : IbvRecvWr} (hq : q.recvs = 0) :
    (ibvPostRecv wr).Ensures QueuePair.handler Paired (fun _ q' => q' = ⟨q.sends, 1⟩) q := by
  refine Handler.always_booked_vis hq ?_
  intro r q' hr a ha
  cases hr
  cases hok : CRet.isOk r with
  | true => rw [if_pos rfl, hq]
  | false =>
    obtain ⟨e, he⟩ := rdmaCall_of_not_isOk "ibv_post_recv" hok
    rw [he] at ha
    cases ha

/-- A poll that hands out a completion empties the queue. -/
theorem ensures_pollSend (hq : q.sends = 1) :
    (pollComp .send op what).Ensures QueuePair.handler Paired
      (fun _ q' => q' = ⟨0, q.recvs⟩) q := by
  rw [Fallible.Ensures, run_pollComp]
  refine Handler.always_booked_vis hq ?_
  intro p q' hp wc hwc
  cases p with
  | entry wc' =>
    simp only [QueuePair.after, hq, Nat.one_ne_zero, if_false, Option.some.injEq] at hp
    exact hp.symm
  | _ => cases hwc

theorem ensures_pollRecv (hq : q.recvs = 1) :
    (pollComp .recv op what).Ensures QueuePair.handler Paired
      (fun _ q' => q' = ⟨q.sends, 0⟩) q := by
  rw [Fallible.Ensures, run_pollComp]
  refine Handler.always_booked_vis hq ?_
  intro p q' hp wc hwc
  cases p with
  | entry wc' =>
    simp only [QueuePair.after, hq, Nat.one_ne_zero, if_false, Option.some.injEq] at hp
    exact hp.symm
  | _ => cases hwc

theorem always_panic_paired {Q : α → QueuePair → Prop} (msg : String) (q : QueuePair) :
    QueuePair.handler.Always Paired Q (Task.panic msg) q :=
  Handler.always_booked_vis trivial fun r => r.elim

/-- Making a page and registering it, and the GPU buffers. -/
theorem ensures_setUp_offQueue {β γ : Type} {ordinal : Int} {body : β → IbvMr → GPUMemBuffer → β}
    {bufs : List GPUMemBuffer} {acc : β} {f : MemBuffer → IbvMr → β → Fallible γ}
    {P : γ → QueuePair → Prop}
    (hf : ∀ cpuBuffer cpuMr r, (f cpuBuffer cpuMr r).Ensures QueuePair.handler Paired P q) :
    ((Fallible.lift (Task.perform .newPage)).andThen fun cpuBuffer =>
      (ibvRegMr cpuBuffer.ptr cpuBuffer.getSize mrAccess).andThen fun cpuMr =>
      (cudaDevicePrimaryCtxRetain ordinal).andThen fun _ =>
      cudaSetCurrentCtx.andThen fun _ =>
      (registerLoop body bufs acc).andThen (f cpuBuffer cpuMr)).Ensures
        QueuePair.handler Paired P q := by
  refine .andThen (ensures_offQueue (Fallible.only_call trivial)) ?_
  rintro cpuBuffer _ rfl
  refine .andThen (ensures_offQueue (only_ibvRegMr trivial)) ?_
  rintro cpuMr _ rfl
  refine .andThen (ensures_offQueue (only_cudaDevicePrimaryCtxRetain trivial trivial)) ?_
  rintro _ _ rfl
  refine .andThen (ensures_offQueue (Fallible.only_call trivial)) ?_
  rintro _ _ rfl
  refine .andThen (ensures_offQueue (only_registerLoop _ _ fun _ _ _ => trivial)) ?_
  rintro r _ rfl
  exact hf cpuBuffer cpuMr r

end Rules

/-! ### Whole runs -/

/-- At most one request is outstanding on either queue, and what comes next is allowed. -/
structure Shallow {α : Type} (c : Config iface QueuePair α) : Prop where
  /-- The send queue, of one request. -/
  sends : c.world.sends ≤ 1
  /-- The receive queue, of one request. -/
  recvs : c.world.recvs ≤ 1
  /-- A request is posted on an empty queue, and a completion is polled from a full one. -/
  paired : ∀ op, c.prog.next? = some op → Paired op c.world

/-- An operation that finds its queue as it should keeps both within one request. -/
theorem le_one_of_after {op : Op} {r : op.Ans} {q q' : QueuePair} (hop : Paired op q)
    (hq : q.sends ≤ 1 ∧ q.recvs ≤ 1) (hr : q.after op r = some q') :
    q'.sends ≤ 1 ∧ q'.recvs ≤ 1 := by
  by_cases hoff : OffQueue op
  · rw [after_of_offQueue hoff hr]
    exact hq
  cases op with
  | ibvPostSend wr =>
    obtain ⟨hsends, -⟩ : q.sends = 0 ∧ _ := hop
    cases hr
    split
    · exact ⟨by simp [hsends], hq.2⟩
    · exact hq
  | ibvPostRecv wr =>
    have hrecvs : q.recvs = 0 := hop
    cases hr
    split
    · exact ⟨hq.1, by simp [hrecvs]⟩
    · exact hq
  | ibvPollCq cq =>
    cases cq <;> cases r <;> simp only [QueuePair.after] at hr
    all_goals first
      | cases hr; exact hq
      | (split at hr
         · cases hr
         · cases hr; exact ⟨by simp; omega, by simp; omega⟩)
  | _ => exact absurd trivial hoff

theorem shallow_of_always {α : Type} {Q : α → QueuePair → Prop} {p : Task α}
    {c : Config iface QueuePair α} (hp : QueuePair.handler.Always Paired Q p .empty)
    (hr : Reach (Handler.step QueuePair.handler) anyStep ⟨.empty, p⟩ c) : Shallow c := by
  have hc := hp.reach (c := ⟨QueuePair.empty, p⟩) hr
  have hle := hp.invariant (c := ⟨QueuePair.empty, p⟩) (J := fun q => q.sends ≤ 1 ∧ q.recvs ≤ 1)
    ⟨Nat.zero_le 1, Nat.zero_le 1⟩ hr fun op q choice r q' hop hq h =>
      le_one_of_after hop hq (Handler.booked_eq_some.mp h).2
  refine ⟨hle.1, hle.2, ?_⟩
  intro op hop
  cases hprog : c.prog with
  | ret a => rw [hprog] at hop; cases hop
  | vis op' k =>
    rw [hprog] at hop hc
    cases hop
    exact hc.head

/-! ### The server -/

namespace Server

variable (cpuMr : IbvMr) (cpuBuffer : MemBuffer)

theorem ensures_establishConn_paired :
    (establishConn cpuMr cpuBuffer).Ensures QueuePair.handler Paired (fun _ q => q = .empty)
      .empty := by
  refine .andThen (ensures_offQueue (Fallible.only_call trivial)) ?_
  rintro a _ rfl
  refine .andThen (ensures_postRecv rfl) ?_
  rintro _ _ rfl
  refine .andThen (ensures_offQueue (Fallible.only_call trivial)) ?_
  rintro _ _ rfl
  refine .andThen (ensures_pollRecv rfl) ?_
  rintro _ _ rfl
  refine .andThen (ensures_offQueue (Fallible.only_call trivial)) ?_
  rintro b _ rfl
  refine .andThen (ensures_postSend rfl (inlineAtMost_connection rfl)) ?_
  rintro _ _ rfl
  refine .andThen (ensures_pollSend rfl) ?_
  rintro _ _ rfl
  refine ensures_offQueue ?_
  exact ⟨trivial, fun _ => trivial⟩

/-- **`accept`** leaves nothing outstanding when it returns a connection. -/
theorem ensures_accept_paired (gpuOrdinal : Int) (gpuBuffers : List GPUMemBuffer) :
    (accept gpuOrdinal gpuBuffers).Ensures QueuePair.handler Paired (fun _ q => q = .empty)
      .empty := by
  refine .andThen (ensures_offQueue (Fallible.only_call trivial)) ?_
  rintro _ _ rfl
  refine .andThen (ensures_offQueue (Fallible.only_call trivial)) ?_
  rintro _ _ rfl
  refine ensures_setUp_offQueue ?_
  rintro cpuBuffer cpuMr ⟨conns, localGpuBufferMap⟩
  refine .andThen (ensures_establishConn_paired cpuMr cpuBuffer) ?_
  rintro clientConn _ rfl
  refine .andThen (ensures_offQueue ((only_serializeInto trivial).bind fun _ _ => trivial)) ?_
  rintro written _ rfl
  refine .andThen (ensures_offQueue (Fallible.only_ofExcept _)) ?_
  rintro _ _ rfl
  refine .andThen (ensures_postSend rfl (inlineAtMost_signaled rfl)) ?_
  rintro _ _ rfl
  refine .andThen (ensures_pollSend rfl) ?_
  rintro _ _ rfl
  exact Fallible.ensures_pure rfl

theorem ensures_handleNotification_paired :
    (handleNotification cpuMr cpuBuffer).Ensures QueuePair.handler Paired (fun _ q => q = .empty)
      .empty := by
  refine .andThen (ensures_postRecv rfl) ?_
  rintro _ _ rfl
  refine .andThen (ensures_pollRecv rfl) ?_
  rintro wc _ rfl
  split
  · refine .andThen (ensures_offQueue ((only_slicePage trivial trivial).bind fun _ _ => trivial)) ?_
    rintro data _ rfl
    exact ensures_offQueue (Fallible.only_ofExcept _)
  · exact Fallible.ensures_pure rfl

/-- One pass of the loop starts and ends with nothing outstanding. -/
theorem always_handlerIteration_paired :
    QueuePair.handler.Always Paired (fun _ q => q = .empty) (handlerIteration cpuMr cpuBuffer)
      .empty := by
  rw [handlerIteration_eq]
  refine (ensures_handleNotification_paired cpuMr cpuBuffer).bind ?_
  intro r q hr
  cases r with
  | error e => exact always_panic_paired _ q
  | ok notification =>
    rw [hr notification rfl]
    exact always_offQueue (only_handlerTail notification trivial (fun _ => trivial) trivial
      (fun _ => trivial) trivial)

theorem always_handler_paired (n : ℕ) :
    QueuePair.handler.Always Paired (fun _ _ => True) (handler cpuMr cpuBuffer n) .empty := by
  rw [handler_eq]
  refine (Handler.Always.loop (J := fun q => q = .empty) (R := fun _ q => q = .empty) ?_ n
    rfl).bind ?_
  · rintro _ rfl
    refine (always_handlerIteration_paired cpuMr cpuBuffer).mono ?_
    intro o q hq
    cases o <;> exact hq
  · intro o q _
    cases o with
    | none => trivial
    | some _ => exact (always_offQueue (only_handlerEnd trivial trivial)).mono fun _ _ _ => trivial

/-- **The server's task** uses its queue pair one request at a time, whatever the card does. -/
theorem always_handlerTask_paired (gpuOrdinal : Int) (gpuBuffers : List GPUMemBuffer) (n : ℕ) :
    QueuePair.handler.Always Paired (fun _ _ => True) (handlerTask gpuOrdinal gpuBuffers n)
      .empty := by
  rw [handlerTask_eq_bind]
  refine (ensures_accept_paired gpuOrdinal gpuBuffers).bind ?_
  intro r q hr
  cases r with
  | ok out =>
    obtain ⟨conn, ⟨cpuMr, cpuBuffer⟩, gpus⟩ := out
    rw [hr _ rfl]
    exact always_handler_paired cpuMr cpuBuffer n
  | error e =>
    refine (always_offQueue ?_).mono fun _ _ _ => trivial
    exact ⟨trivial, fun _ => only_handlerEnd trivial trivial⟩

/-- **The server's queue pair.** In every state that the task of a connection reaches, from
`accept` to the disconnect and whatever the card does: at most one request is outstanding on either
queue; the next request is posted on an empty queue, and not longer than a `Connection` if it is
inline; and the next poll waits for the one request that is outstanding. -/
theorem shallow_of_handlerTask (gpuOrdinal : Int) (gpuBuffers : List GPUMemBuffer) (n : ℕ)
    {c : Config iface QueuePair (Option Unit)}
    (h : Reach (Handler.step QueuePair.handler) anyStep
      ⟨.empty, handlerTask gpuOrdinal gpuBuffers n⟩ c) : Shallow c :=
  shallow_of_always (always_handlerTask_paired gpuOrdinal gpuBuffers n) h

/-- Every call succeeds. -/
def willing : Answers iface
  | .ibvPostSend _ | .ibvPostRecv _ | .ibvQueryQp | .ibvModifyQp _ => some (.ret 0 0)
  | .rdmaAccept | .rdmaConnect | .rdmaDisconnect => some (.ret 0 0)
  | .ibvPollCq _ => some (.entry ⟨ibvWcSuccess, ibvWcRecvRdmaWithImm, htonl 8⟩)
  | .ibvRegMr _ _ _ => some (some (1, 1))
  | .cuDeviceGet _ | .cuDevicePrimaryCtxRetain | .cuCtxSetCurrent => some (0 : UInt32)
  | .newPage => some (⟨4096⟩ : MemBuffer)
  | .readPage _ => some Page.zero
  | .letConn _ => some (8192 : UInt64)
  | .readConn _ => some Connection.zero
  | .writePage _ _ => some ()
  | _ => none

/-- The task has posted the receive for the client's page. -/
theorem shallow_of_handlerTask_listening : ∃ c : Config iface QueuePair (Option Unit),
    Reach (Handler.step QueuePair.handler) anyStep ⟨.empty, handlerTask 0 [⟨65536, 16⟩] 1⟩ c ∧
      c.world = ⟨0, 1⟩ ∧ Shallow c := by
  obtain ⟨c, hc, hworld⟩ : ∃ c, Reach (Handler.step QueuePair.handler) anyStep
      ⟨.empty, handlerTask 0 [⟨65536, 16⟩] 1⟩ c ∧ c.world = ⟨0, 1⟩ :=
    exists_reach_of_execWithin (List.replicate 10 willing) ⟨_, rfl, rfl⟩
  exact ⟨c, hc, hworld, shallow_of_handlerTask 0 _ 1 hc⟩

end Server

/-! ### The client -/

namespace Client

theorem ensures_establishConn_paired (cpuMr : IbvMr) (cpuBuffer : MemBuffer) :
    (establishConn cpuMr cpuBuffer).Ensures QueuePair.handler Paired (fun _ q => q = .empty)
      .empty := by
  refine .andThen (ensures_offQueue (Fallible.only_call trivial)) ?_
  rintro a _ rfl
  refine .andThen (ensures_postRecv rfl) ?_
  rintro _ _ rfl
  refine .andThen (ensures_offQueue (Fallible.only_call trivial)) ?_
  rintro _ _ rfl
  refine .andThen (ensures_offQueue (Fallible.only_call trivial)) ?_
  rintro b _ rfl
  refine .andThen (ensures_postSend rfl (inlineAtMost_connection rfl)) ?_
  rintro _ _ rfl
  refine .andThen (ensures_pollSend rfl) ?_
  rintro _ _ rfl
  refine .andThen (ensures_pollRecv rfl) ?_
  rintro _ _ rfl
  refine ensures_offQueue ?_
  exact ⟨trivial, fun _ => trivial⟩

/-- **`connect`** leaves nothing outstanding when it returns a connection. -/
theorem ensures_connect_paired (gpuOrdinal : Int) (gpuBuffers : List GPUMemBuffer) :
    (connect gpuOrdinal gpuBuffers).Ensures QueuePair.handler Paired (fun _ q => q = .empty)
      .empty := by
  refine .andThen (ensures_offQueue (Fallible.only_call trivial)) ?_
  rintro _ _ rfl
  refine ensures_setUp_offQueue ?_
  intro cpuBuffer cpuMr localGpuBufferMap
  refine .andThen (ensures_establishConn_paired cpuMr cpuBuffer) ?_
  rintro serverConn _ rfl
  refine .andThen (ensures_postRecv rfl) ?_
  rintro _ _ rfl
  refine .andThen (ensures_pollRecv rfl) ?_
  rintro wc _ rfl
  split
  · exact Fallible.ensures_fail
  · refine .andThen (ensures_offQueue ((only_slicePage trivial trivial).bind fun _ _ => trivial)) ?_
    rintro data _ rfl
    refine .andThen (ensures_offQueue (Fallible.only_ofExcept _)) ?_
    rintro conns _ rfl
    exact Fallible.ensures_pure rfl

/-- **The client's queue pair** during `connect`, whatever the card does: at most one request is
outstanding on either queue, every request is posted on an empty queue and every poll waits for the
one that is outstanding, and once a connection has been returned nothing is outstanding. -/
theorem shallow_of_connect (gpuOrdinal : Int) (gpuBuffers : List GPUMemBuffer)
    {c : Config iface QueuePair (Except TransportErrors
      (Connection × (IbvMr × MemBuffer) × LocalGpuBuffers × HashMap Connection))}
    (h : Reach (Handler.step QueuePair.handler) anyStep
      ⟨.empty, (connect gpuOrdinal gpuBuffers).run⟩ c) :
    Shallow c ∧ ∀ out, c.prog = .ret (.ok out) → c.world = .empty := by
  have hall : QueuePair.handler.Always Paired (fun r q => ∀ out, r = .ok out → q = .empty)
      (connect gpuOrdinal gpuBuffers).run .empty := ensures_connect_paired gpuOrdinal gpuBuffers
  refine ⟨shallow_of_always hall h, ?_⟩
  intro out hout
  have hc := hall.reach (c := ⟨QueuePair.empty, _⟩) h
  rw [hout] at hc
  exact hc out rfl

/-- A client that has connected to a server without buffers. -/
theorem shallow_of_connect_connected : ∃ c : Config iface QueuePair (Except TransportErrors
    (Connection × (IbvMr × MemBuffer) × LocalGpuBuffers × HashMap Connection)),
    Reach (Handler.step QueuePair.handler) anyStep
      ⟨.empty, (connect 0 [⟨65536, 16⟩]).run⟩ c ∧ (∃ out, c.prog = .ret (.ok out)) ∧
        Shallow c ∧ ∀ out, c.prog = .ret (.ok out) → c.world = .empty := by
  obtain ⟨c, hc, out, hout⟩ : ∃ c, Reach (Handler.step QueuePair.handler) anyStep
      ⟨.empty, (connect 0 [⟨65536, 16⟩]).run⟩ c ∧ ∃ out, c.prog = .ret (.ok out) :=
    exists_reach_of_execWithin (List.replicate 18 Server.willing) ⟨_, rfl, _, rfl⟩
  exact ⟨c, hc, ⟨out, hout⟩, shallow_of_connect 0 _ hc⟩

end Client

end RdmaTransport
