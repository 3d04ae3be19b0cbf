import RdmaTransport.Internal.Run
import RdmaTransport.Rdma

/-!
# Whose completion an operation consumes

No operation compares `wr_id`: an operation posts one work request, polls one completion and takes
it for its own. That is right as long as nothing else is outstanding when the operation starts. It
is left behind by one exit only, a `poll_cq` that fails: the `?` returns while the request stays
outstanding, and the next operation is handed its completion.

`Provider` is a queue pair with any behaviour at all: it accepts or refuses a post, fails a poll or
completes the oldest request with any status, and delivers nothing while `poll_cq` answers zero. A
`Sys` is a caller that makes any sequence of calls on it and continues whatever they return.

## Main results

* `always_call` — one call that finds nothing outstanding
* `ownRequests` — whole runs: as long as every call starts with nothing outstanding, every call
  that returns `Ok` has consumed the success completion of its own request
* `ownRequests_fails` — one failed `poll_cq`, and it has not
-/

namespace RdmaTransport

open Interaction

namespace OwnRequests

/-! ### The queue pair -/

/-- A posted send work request and the call that posted it. -/
structure Request where
  /-- The number of the call. -/
  call : ℕ
  /-- The work request. -/
  wr : IbvSendWr
  deriving DecidableEq, Repr

/-- A polled completion and the request it completes. -/
structure Completion where
  /-- The request. -/
  request : Request
  /-- The status. -/
  status : UInt32
  deriving DecidableEq, Repr

/-- The queue pair, and what the running call has done on it. -/
structure Provider where
  /-- The number of the running call, or of the last one. -/
  call : ℕ
  /-- Accepted and not completed yet, oldest first. -/
  pending : List Request
  /-- What this call has posted. -/
  posted : List Request
  /-- What this call has polled. -/
  consumed : List Completion

/-- What the provider does next. -/
inductive Choice
  /-- Return this. A post is accepted if it is success. -/
  | ret (r : CRet)
  /-- `poll_cq` fails. -/
  | pollFails (code : Int)
  /-- `poll_cq` hands out the oldest completion. -/
  | completes (wc : IbvWc)
  /-- Go on. -/
  | go

/-- The behaviour of the queue pair. A poll that is not answered is one that has answered zero so
far. -/
def Provider.handler : Handler iface Provider Choice
  | .ibvPostSend wr, s, .ret r =>
    if r.isOk then
      some (r, { s with
        pending := s.pending ++ [⟨s.call, wr⟩]
        posted := s.posted ++ [⟨s.call, wr⟩] })
    else some (r, s)
  | .ibvPollCq .send, s, .pollFails code => some (.negative code, s)
  | .ibvPollCq .send, s, .completes wc =>
    match s.pending with
    | [] => none
    | request :: rest =>
      some (.entry wc, { s with pending := rest, consumed := s.consumed ++ [⟨request, wc.status⟩] })
  | .rdmaDisconnect, s, .ret r => some (r, s)
  | .writePage _ _, s, .go => some ((), s)
  | .overflow, s, .go => some ((), s)
  | .observe _, s, .go => some ((), s)
  | _, _, _ => none

/-! ### Buffers -/

/-- A range of local memory. -/
structure Span where
  /-- Where it starts. -/
  start : ℕ
  /-- How many bytes it has. -/
  length : ℕ

/-- The ranges have a byte in common. -/
def Span.Overlaps (a b : Span) : Prop := a.start < b.start + b.length ∧ b.start < a.start + a.length

instance (a b : Span) : Decidable (a.Overlaps b) := inferInstanceAs (Decidable (_ ∧ _))

/-- The local range of a work request. -/
def span (wr : IbvSendWr) : Span := ⟨wr.sge.addr.toNat, wr.sge.length.toNat⟩

/-- The local range an operation rewrites, if it is accepted. -/
def rewrites : Op → Option Span
  | .writePage buf bytes => some ⟨buf.ptr.toNat, bytes.length⟩
  | .ibvPostSend wr => if wr.opcode = .rdmaRead then some (span wr) else none
  | _ => none

/-- Some outstanding request reads a byte of the range. -/
def Provider.Reading (s : Provider) (a : Span) : Prop :=
  ∃ r ∈ s.pending, r.wr.opcode ≠ .rdmaRead ∧ (span r.wr).Overlaps a

instance (s : Provider) (a : Span) : Decidable (s.Reading a) :=
  inferInstanceAs (Decidable (∃ _ ∈ _, _))

/-! ### The caller -/

/-- The calls. -/
inductive Call
  /-- `write`. -/
  | write (conn : Connection) (mr : IbvMr) (localBufferAddr remoteBufferAddr : UInt64)
    (size : UInt32)
  /-- `read`. -/
  | read (conn : Connection) (mr : IbvMr) (localBufferAddr remoteBufferAddr : UInt64)
    (size : UInt32)
  /-- `write_metadata`, and the bytes the caller puts into the page just before it. -/
  | writeMetadata (bytes : List UInt8) (conn : Connection) (cpuMr : IbvMr) (cpuBuffer : MemBuffer)
    (offset size : UInt16)
  /-- The client's `disconnect`. -/
  | disconnect (conn : Connection) (cpuMr : IbvMr) (cpuBuffer : MemBuffer)

/-- What a call runs. -/
def Call.task : Call → Task (Except TransportErrors Unit)
  | .write conn mr loc rem size => (RdmaTransport.write conn mr loc rem size).run
  | .read conn mr loc rem size => (RdmaTransport.read conn mr loc rem size).run
  | .writeMetadata bytes conn cpuMr cpuBuffer offset size => do
    Task.perform (.writePage cpuBuffer bytes)
    (RdmaTransport.writeMetadata conn cpuMr cpuBuffer offset size).run
  | .disconnect conn cpuMr cpuBuffer => (Client.disconnect conn cpuMr cpuBuffer).run

/-- A call that has returned. -/
structure Returned where
  /-- Its number. -/
  call : ℕ
  /-- Its result. -/
  result : Except TransportErrors Unit
  /-- What it posted. -/
  posted : List Request
  /-- What it polled. -/
  consumed : List Completion

/-- A caller in the middle of its calls. -/
structure Sys where
  /-- The queue pair. -/
  provider : Provider
  /-- The rest of the running call. -/
  running : Option (Task (Except TransportErrors Unit))
  /-- The calls that have returned. -/
  history : List Returned

/-- Before the first call. -/
def Sys.init : Sys := ⟨⟨0, [], [], []⟩, none, []⟩

/-- Who moves. -/
inductive Label
  /-- The caller makes a call. -/
  | call (c : Call)
  /-- The running call performs an operation. -/
  | act (choice : Choice)
  /-- The running call returns to the caller. -/
  | return

/-- One step. -/
def Sys.step (s : Sys) : Label → Option Sys
  | .call c =>
    match s.running with
    | none => some ⟨⟨s.provider.call + 1, s.provider.pending, [], []⟩, some c.task, s.history⟩
    | some _ => none
  | .act choice =>
    match s.running with
    | some p => (Handler.step Provider.handler ⟨s.provider, p⟩ choice).map fun c =>
        ⟨c.world, some c.prog, s.history⟩
    | none => none
  | .return =>
    match s.running with
    | some (.ret r) => some ⟨s.provider, none,
        s.history ++ [⟨s.provider.call, r, s.provider.posted, s.provider.consumed⟩]⟩
    | _ => none

/-- A call starts only when nothing is outstanding. Every other step is free. -/
def nothingOutstanding (s : Sys) : Label → Bool
  | .call _ => s.provider.pending.isEmpty
  | _ => true

/-- What is asked of a state. -/
structure Matched (s : Sys) : Prop where
  /-- At most one send work request is outstanding. -/
  one : s.provider.pending.length ≤ 1
  /-- A call that returned `Ok` posted one request and consumed its success completion, and no
  other. -/
  own : ∀ c ∈ s.history, c.result = .ok () →
    ∃ wr, c.posted = [⟨c.call, wr⟩] ∧ c.consumed = [⟨⟨c.call, wr⟩, ibvWcSuccess⟩]
  /-- No operation rewrites a range an outstanding request reads. -/
  intact : ∀ p ∈ s.running, ∀ op ∈ p.next?, ∀ a ∈ rewrites op, ¬ s.provider.Reading a
  /-- No call reports a range done that an outstanding request reads. -/
  done : s.running = some (.ret (.ok ())) → ∀ r ∈ s.provider.posted,
    ¬ s.provider.Reading (span r.wr)

/-! ### One call -/

/-- What every operation of a call finds. -/
def Fine (op : Op) (s : Provider) : Prop :=
  s.pending.length ≤ 1 ∧ ∀ a ∈ rewrites op, ¬ s.Reading a

/-- What the call with number `n` leaves behind. -/
def Leaves (n : ℕ) (r : Except TransportErrors Unit) (s : Provider) : Prop :=
  s.call = n ∧ s.pending.length ≤ 1 ∧
    (r = .ok () → s.pending = [] ∧
      ∃ wr, s.posted = [⟨n, wr⟩] ∧ s.consumed = [⟨⟨n, wr⟩, ibvWcSuccess⟩])

variable {s s' : Provider} {n : ℕ}

theorem fine_of_idle (h : s.pending = []) (op : Op) : Fine op s := by
  refine ⟨by simp [h], ?_⟩
  intro a _
  simp [Provider.Reading, h]

theorem leaves_error (h : s.pending.length ≤ 1) (hn : s.call = n) (e : TransportErrors) :
    Leaves n (.error e) s := ⟨hn, h, fun he => by cases he⟩

/-- **One poll.** With its own request alone outstanding, a call takes the completion of it. -/
theorem always_pollSend (wr : IbvSendWr) {op what : String} (hpending : s.pending = [⟨s.call, wr⟩])
    (hposted : s.posted = [⟨s.call, wr⟩]) (hconsumed : s.consumed = []) :
    Provider.handler.Always Fine (Leaves s.call)
      (Task.call (.ibvPollCq .send) fun p => .ret ((compResult op what p).map fun _ => ())) s := by
  refine ⟨⟨by simp [hpending], by simp [rewrites]⟩, ?_⟩
  intro choice p s₁ hp
  cases choice with
  | pollFails code =>
    cases hp
    exact leaves_error (by simp [hpending]) rfl _
  | completes wc =>
    simp only [Provider.handler, hpending] at hp
    cases hp
    by_cases hwc : wc.status = ibvWcSuccess
    · simp only [compResult_entry_of_success hwc]
      exact ⟨rfl, by simp, fun _ => ⟨rfl, wr, hposted, by simp [hconsumed, hwc]⟩⟩
    · obtain ⟨e, he⟩ := compResult_entry_of_failed op what hwc
      simp only [he]
      exact leaves_error (by simp) rfl e
  | _ => cases hp

/-- **One post, one poll.** Started with nothing outstanding, the completion it takes is its own. -/
theorem always_postAndPoll (hidle : s.pending = []) (hposted : s.posted = [])
    (hconsumed : s.consumed = []) (wr : IbvSendWr) (op what : String) :
    Provider.handler.Always Fine (Leaves s.call) (postAndPoll wr op what).run s := by
  refine always_postThenPoll (fine_of_idle hidle _) ?_ ?_
  · intro choice r s₁ hr hrefused e
    cases choice with
    | ret r' =>
      simp only [Provider.handler] at hr
      split at hr <;> cases hr <;> exact leaves_error (by simp [hidle]) rfl e
    | _ => cases hr
  · intro choice r s₁ hr hok
    cases choice with
    | ret r' =>
      simp only [Provider.handler] at hr
      split at hr
      · cases hr
        refine always_pollSend wr ?_ ?_ hconsumed
        · simp [hidle]
        · simp [hposted]
      next hbad =>
        cases hr
        exact absurd hok hbad
    | _ => cases hr

theorem always_addU64 {Q : UInt64 → Provider → Prop} (hidle : s.pending = []) (a b : UInt64)
    (hQ : ∀ c, Q c s) : Provider.handler.Always Fine Q (Task.addU64 a b) s := by
  by_cases h : a.toNat + b.toNat < 2 ^ 64
  · rw [Task.addU64_of_lt h]
    exact hQ _
  · rw [Task.addU64_of_ge h]
    refine ⟨fine_of_idle hidle _, ?_⟩
    intro choice r s' hr
    cases choice <;> cases hr
    exact hQ _

theorem always_writeMetadata (hidle : s.pending = []) (hposted : s.posted = [])
    (hconsumed : s.consumed = []) (conn : Connection) (cpuMr : IbvMr) (cpuBuffer : MemBuffer)
    (offset size : UInt16) :
    Provider.handler.Always Fine (Leaves s.call)
      (RdmaTransport.writeMetadata conn cpuMr cpuBuffer offset size).run s := by
  rw [run_writeMetadata]
  refine (always_addU64 (Q := fun _ s' => s = s') hidle _ _ fun _ => rfl).bind ?_
  rintro addr _ rfl
  refine (always_addU64 (Q := fun _ s' => s = s') hidle _ _ fun _ => rfl).bind ?_
  rintro remoteAddr _ rfl
  exact always_postAndPoll hidle hposted hconsumed _ _ _

theorem always_disconnect (hidle : s.pending = []) (hposted : s.posted = [])
    (hconsumed : s.consumed = []) (conn : Connection) (cpuMr : IbvMr) (cpuBuffer : MemBuffer) :
    Provider.handler.Always Fine (Leaves s.call) (Client.disconnect conn cpuMr cpuBuffer).run
      s := by
  rw [Client.run_disconnect]
  refine ⟨fine_of_idle hidle _, ?_⟩
  intro choice _ s₁ hr
  cases choice <;> cases hr
  refine ⟨fine_of_idle hidle _, ?_⟩
  intro choice _ s₁ hr
  cases choice <;> cases hr
  refine (always_writeMetadata hidle hposted hconsumed conn cpuMr cpuBuffer 0 5).bind ?_
  rintro (e | ⟨⟩) s₁ hleaves
  · exact hleaves
  · obtain ⟨hn, hone, hok⟩ := hleaves
    refine ⟨fine_of_idle (hok rfl).1 _, ?_⟩
    intro choice r s₂ hr
    cases choice <;> cases hr
    exact ⟨hn, hone, fun _ => hok rfl⟩

/-- **A call that finds nothing outstanding** answers for its own request, whatever the provider
does during it. -/
theorem always_call (hidle : s.pending = []) (hposted : s.posted = []) (hconsumed : s.consumed = [])
    (c : Call) : Provider.handler.Always Fine (Leaves s.call) c.task s := by
  cases c with
  | write conn mr loc rem size =>
    rw [Call.task, write_eq]
    exact always_postAndPoll hidle hposted hconsumed _ _ _
  | read conn mr loc rem size =>
    rw [Call.task, read_eq]
    exact always_postAndPoll hidle hposted hconsumed _ _ _
  | writeMetadata bytes conn cpuMr cpuBuffer offset size =>
    refine ⟨fine_of_idle hidle _, ?_⟩
    intro choice _ s₁ hr
    cases choice <;> cases hr
    exact always_writeMetadata hidle hposted hconsumed conn cpuMr cpuBuffer offset size
  | disconnect conn cpuMr cpuBuffer =>
    exact always_disconnect hidle hposted hconsumed conn cpuMr cpuBuffer

/-! ### Whole runs -/

/-- What a guarded run keeps. -/
structure Inv (s : Sys) : Prop where
  /-- Between calls, at most one request is outstanding. -/
  idle : s.running = none → s.provider.pending.length ≤ 1
  /-- The running call will answer for its own request. -/
  running : ∀ p ∈ s.running, ∃ n, Provider.handler.Always Fine (Leaves n) p s.provider
  /-- So has every call that returned. -/
  history : ∀ c ∈ s.history, c.result = .ok () →
    ∃ wr, c.posted = [⟨c.call, wr⟩] ∧ c.consumed = [⟨⟨c.call, wr⟩, ibvWcSuccess⟩]

theorem inv_init : Inv .init :=
  ⟨fun _ => by simp [Sys.init], by simp [Sys.init], by simp [Sys.init]⟩

theorem inv_step {s s' : Sys} {l : Label} (h : Inv s) (hG : nothingOutstanding s l = true)
    (hs : s.step l = some s') : Inv s' := by
  obtain ⟨provider, running, history⟩ := s
  cases l with
  | call c =>
    cases running with
    | some p => cases hs
    | none =>
      cases hs
      have hidle : provider.pending = [] := List.isEmpty_iff.mp hG
      refine ⟨nofun, ?_, h.history⟩
      rintro p ⟨⟩
      exact ⟨provider.call + 1, always_call (s := ⟨provider.call + 1, provider.pending, [], []⟩)
        hidle rfl rfl c⟩
  | act choice =>
    cases running with
    | none => cases hs
    | some p =>
      obtain ⟨c, hc, rfl⟩ := Option.map_eq_some_iff.mp hs
      obtain ⟨n, hn⟩ := h.running p rfl
      refine ⟨nofun, ?_, h.history⟩
      rintro q ⟨⟩
      exact ⟨n, Handler.Always.step (c := ⟨provider, p⟩) hn hc⟩
  | «return» =>
    cases running with
    | none => cases hs
    | some p =>
      cases p with
      | vis op k => cases hs
      | ret r =>
        cases hs
        obtain ⟨n, hn, hone, hok⟩ := h.running _ rfl
        refine ⟨fun _ => hone, by simp, ?_⟩
        intro c hc hres
        rcases List.mem_append.mp hc with hc | hc
        · exact h.history c hc hres
        · cases List.mem_singleton.mp hc
          obtain ⟨_, wr, hposted, hconsumed⟩ := hok hres
          exact ⟨wr, hn ▸ hposted, hn ▸ hconsumed⟩

theorem matched_of_inv {s : Sys} (h : Inv s) : Matched s := by
  obtain ⟨provider, running, history⟩ := s
  cases running with
  | none => exact ⟨h.idle rfl, h.history, by simp, nofun⟩
  | some p =>
    obtain ⟨n, hn⟩ := h.running p rfl
    cases p with
    | ret r =>
      refine ⟨hn.2.1, h.history, ?_, ?_⟩
      · rintro _ ⟨⟩ op ⟨⟩
      · rintro ⟨⟩ q _
        have hidle : provider.pending = [] := (hn.2.2 rfl).1
        simp [Provider.Reading, hidle]
    | vis op k =>
      refine ⟨hn.1.1, h.history, ?_, nofun⟩
      rintro _ ⟨⟩ _ ⟨⟩ a ha
      exact hn.1.2 a ha

/-- **Every operation answers for its own request**, in every run in which a call starts only when
nothing is outstanding, that is, in which no call follows a failed `poll_cq`. -/
theorem ownRequests {s : Sys} (h : Reach Sys.step nothingOutstanding .init s) : Matched s :=
  matched_of_inv (h.invariant inv_init fun _ _ _ hinv hG hs => inv_step hinv hG hs)

/-- A write and then an announcement, each with its own completion. -/
theorem ownRequests_write : ∃ s, Reach Sys.step nothingOutstanding .init s ∧ Matched s ∧
    s.history.map (fun c => (c.call, c.consumed.map fun d => d.request.call)) =
      [(1, [1]), (2, [2])] := by
  obtain ⟨s, hs, hhistory⟩ : ∃ s, Reach Sys.step nothingOutstanding .init s ∧
      s.history.map (fun c => (c.call, c.consumed.map fun d => d.request.call)) =
        [(1, [1]), (2, [2])] :=
    exists_reach_of_execWithin
      [.call (.write .zero ⟨4096, 64, 1, 1⟩ 4096 8192 16), .act (.ret (.ret 0 0)),
        .act (.completes ⟨ibvWcSuccess, 1, 0⟩), .return,
        .call (.writeMetadata [0] .zero ⟨4096, 4096, 1, 1⟩ ⟨4096⟩ 0 1), .act .go,
        .act (.ret (.ret 0 0)), .act (.completes ⟨ibvWcSuccess, 0, 0⟩), .return] ⟨_, rfl, rfl⟩
  exact ⟨s, hs, ownRequests hs, hhistory⟩

/-- A write whose `poll_cq` fails, and then another: the second is handed the completion of the
first and returns `Ok` with its own request outstanding. And an announcement whose `poll_cq` fails,
and then a disconnect: the page is rewritten under the outstanding request. -/
theorem ownRequests_fails :
    (∃ s, Reach Sys.step anyStep .init s ∧ ¬ Matched s ∧ ∃ c ∈ s.history, c.result = .ok () ∧
      c.call = 2 ∧ c.consumed.map (fun d => d.request.call) = [1]) ∧
    ∃ s, Reach Sys.step anyStep .init s ∧ ∃ p ∈ s.running, ∃ op ∈ p.next?, ∃ a ∈ rewrites op,
      s.provider.Reading a := by
  refine ⟨exists_reach_of_execWithin [
      .call (.write .zero ⟨4096, 64, 1, 1⟩ 4096 8192 16), .act (.ret (.ret 0 0)),
      .act (.pollFails (-1)), .return,
      .call (.write .zero ⟨4096, 64, 1, 1⟩ 4112 8208 16), .act (.ret (.ret 0 0)),
      .act (.completes ⟨ibvWcSuccess, 1, 0⟩), .return] ⟨_, rfl, fun h => ?_, ?_⟩,
    exists_reach_of_execWithin [
      .call (.writeMetadata [0] .zero ⟨4096, 4096, 1, 1⟩ ⟨4096⟩ 0 1), .act .go,
      .act (.ret (.ret 0 0)), .act (.pollFails (-1)), .return,
      .call (.disconnect .zero ⟨4096, 4096, 1, 1⟩ ⟨4096⟩)] ⟨_, rfl, ?_⟩⟩
  · obtain ⟨wr, _, hconsumed⟩ := h.own _ (List.mem_of_getElem? (i := 1) rfl) rfl
    cases hconsumed
  · exact ⟨_, List.mem_of_getElem? (i := 1) rfl, rfl, rfl, rfl⟩
  · exact ⟨_, rfl, _, rfl, _, rfl, _, List.mem_singleton_self _, by decide, by decide⟩

end OwnRequests

end RdmaTransport
