import RdmaTransport.Internal.Memory
import RdmaTransport.Vllm.TensorBlock

/-!
# What a queue of commands is for

The purpose of the client, without queue pairs, keys or maps: each command of the queue, in its
order, copies a range between the two GPU memories or tells the server about a request, and nothing
after the first `Disconnect` happens at all. Addresses are numbers here, so nothing wraps.

## Main definitions

* `Command.apply`, `applyAll` — the two GPU memories after a command, after a queue
* `Command.effects` — what a command brings about
* `untilDisconnect` — the part of a queue that is carried out
-/

namespace RdmaTransport

open Interaction

/-- The GPU memories of the two sides. -/
@[ext] structure GpuMemories where
  /-- The client's. -/
  client : ℕ → UInt8
  /-- The server's. -/
  server : ℕ → UInt8

/-- What a command brings about. -/
inductive Effect
  /-- Bytes of the client's GPU memory are now in the server's. -/
  | pushed (localAddr remoteAddr size : ℕ)
  /-- Bytes of the server's GPU memory are now in the client's. -/
  | pulled (localAddr remoteAddr size : ℕ)
  /-- The server has been notified, and this is what it will decode. -/
  | notified (n : Option Notification)
  deriving DecidableEq, Repr

/-- The first address of a block. -/
def TensorBlock.start (b : TensorBlock) : ℕ := b.basePtr.toNat + b.offset.toNat

namespace Command

/-- The GPU memories after a command. The size is that of the local block in either direction. -/
def apply : Command → GpuMemories → GpuMemories
  | .send loc rem, m =>
    { m with server := copyRange m.server m.client rem.start loc.start loc.size.toNat }
  | .recv loc rem, m =>
    { m with client := copyRange m.client m.server loc.start rem.start loc.size.toNat }
  | .complete _, m => m
  | .disconnect, m => m

/-- What a command brings about when it is carried out. -/
def effects : Command → List Effect
  | .send loc rem =>
    if loc.size > 0 then [.pushed loc.start rem.start loc.size.toNat] else []
  | .recv loc rem =>
    if loc.size > 0 then [.pulled loc.start rem.start loc.size.toNat] else []
  | .complete reqId => [.notified (some ⟨0, some reqId⟩)]
  | .disconnect => [.notified (some .complete)]

end Command

/-- The commands up to the first `Disconnect`, that one included. -/
def untilDisconnect : List Command → List Command
  | [] => []
  | c :: cs => if c = .disconnect then [c] else c :: untilDisconnect cs

theorem untilDisconnect_append (cs ds : List Command) :
    untilDisconnect (untilDisconnect cs ++ ds) = untilDisconnect (cs ++ ds) := by
  induction cs with
  | nil => rfl
  | cons c cs ih =>
    by_cases hc : c = .disconnect
    · simp [untilDisconnect, hc]
    · simp [untilDisconnect, hc, ih]

theorem untilDisconnect_of_mem {cs : List Command} (h : .disconnect ∈ cs) (ds : List Command) :
    untilDisconnect (cs ++ ds) = untilDisconnect cs := by
  induction cs with
  | nil => cases h
  | cons c cs ih =>
    by_cases hc : c = .disconnect
    · simp [untilDisconnect, hc]
    · simp [untilDisconnect, hc, ih ((List.mem_cons.mp h).resolve_left (Ne.symm hc))]

/-- What is queued before a disconnect is carried out. -/
theorem untilDisconnect_append_of_notMem {past : List Command} (h : .disconnect ∉ past)
    (rest : List Command) : untilDisconnect (past ++ rest) = past ++ untilDisconnect rest := by
  induction past with
  | nil => rfl
  | cons c past ih =>
    obtain ⟨hc, hpast⟩ := List.ne_and_not_mem_of_not_mem_cons h
    rw [List.cons_append, untilDisconnect, if_neg hc.symm, ih hpast, List.cons_append]

/-- What is carried out of a queue ends with the first disconnect, if there is one. -/
theorem untilDisconnect_cases (cmds : List Command) : ∃ past, .disconnect ∉ past ∧
    ((cmds = past ∧ untilDisconnect cmds = past) ∨
      ∃ rest, cmds = past ++ .disconnect :: rest ∧
        untilDisconnect cmds = past ++ [.disconnect]) := by
  by_cases h : .disconnect ∈ cmds
  · obtain ⟨past, rest, rfl, hgoes⟩ := List.eq_append_cons_of_mem h
    refine ⟨past, hgoes, .inr ⟨rest, rfl, ?_⟩⟩
    rw [untilDisconnect_append_of_notMem hgoes, untilDisconnect, if_pos rfl]
  · refine ⟨cmds, h, .inl ⟨rfl, ?_⟩⟩
    have hall := untilDisconnect_append_of_notMem h []
    rwa [untilDisconnect, List.append_nil] at hall

/-- The GPU memories after all commands of a list, one after the other. -/
def applyAll (cs : List Command) (m : GpuMemories) : GpuMemories :=
  cs.foldl (fun m c => c.apply m) m

@[simp] theorem applyAll_cons (c : Command) (cs : List Command) (m : GpuMemories) :
    applyAll (c :: cs) m = applyAll cs (c.apply m) := rfl

/-- A transfer of size zero is carried out by doing nothing. -/
theorem apply_of_size_zero {loc rem : TensorBlock} (h : ¬ loc.size > 0) (m : GpuMemories) :
    (Command.send loc rem).apply m = m ∧ (Command.recv loc rem).apply m = m := by
  have hzero : loc.size.toNat = 0 := by
    have := UInt32.lt_iff_toNat_lt.not.mp h
    simpa using this
  simp [Command.apply, hzero]

end RdmaTransport
