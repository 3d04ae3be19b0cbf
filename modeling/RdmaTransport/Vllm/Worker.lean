import RdmaTransport.Fabric

/-!
# The turns of the worker

What one command does, in each of the two states the queue pair can be in. A valid command on a
working queue pair does what `Command.apply` and `Command.effects` say and leaves the queue pair
working. Any other turn ruins the connection, or finds it ruined: nothing moves any more, and the
worker either panics at once or goes on until it has to disconnect.

## Main results

* `serves_arm`, `interp_arm_disconnect` — a valid command on a working queue pair
* `ruins_arm`, `aborted_arm_disconnect` — every other turn
* `workerRun_cons` — the worker, command by command
* `workerRun_of_works`, `workerRun_of_ruined` — whole queues, on a queue pair that works and on one
  that has failed
-/

namespace RdmaTransport

open Interaction

namespace Fabric

variable {st : Setup} {wraps : Bool} {w w' : World} {c : Command}

/-- The GPU memories of the two sides. -/
def World.gpu (w : World) : GpuMemories := ⟨w.net.client .gpu, w.net.server .gpu⟩

/-- The turn has carried out the command and left everything ready for the next. -/
structure Serves (c : Command) (w w' : World) : Prop where
  /-- Nothing is left on the queues. -/
  idle : w'.Idle
  /-- The channel is as it was. -/
  queue : w.SameQueue w'
  /-- The queue pair works. -/
  works : w'.net.qpError = false
  /-- The command has been applied to the GPU memories. -/
  gpu : w'.gpu = c.apply w.gpu
  /-- Its effects have been added. -/
  effects : w'.net.effects = w.net.effects ++ c.effects.map fun e => (w.taken, e)

/-! ### Transfers -/

section Transfers

variable {loc rem b : TensorBlock} {mr : IbvMr} {opcode : WrOpcode}
  {op : Connection → IbvMr → UInt64 → UInt64 → UInt32 → Fallible Unit}

theorem toNat_start {n : ℕ} (h : Fits mr b n) : (b.basePtr + b.offset).toNat = b.start := by
  rw [UInt64.toNat_add, Nat.mod_eq_of_lt h.1]
  rfl

/-- **A valid transfer** on a working queue pair is carried out. -/
theorem serves_transfer (hop : Client.IsTransfer op opcode) (hw : w.Idle)
    (hq : w.net.qpError = false)
    (hc : c = .send loc rem ∧ opcode = .rdmaWrite ∨ c = .recv loc rem ∧ opcode = .rdmaRead)
    (hv : loc.size > 0 → (∃ q ∈ st.localRegion loc.basePtr, Fits q.1 loc loc.size.toNat) ∧
      ∃ mr ∈ st.remoteRegion rem.basePtr, Fits mr rem loc.size.toNat) :
    ∃ w', Prog.interp (st.answer wraps)
        (if loc.size > 0 then Client.transferArm st.session op loc rem else pure none) w =
          .done none w' ∧
      Serves c w w' := by
  by_cases hsize : loc.size > 0
  · obtain ⟨⟨q, hloc, hlocFits⟩, mr, hrem, hremFits⟩ := hv hsize
    have hrun := interp_transferArm wraps hop hw hq hloc hlocFits hrem hremFits
    rw [if_pos hsize]
    refine ⟨_, hrun, hw, ⟨rfl, rfl, rfl⟩, (st.qpError_transfer ..).trans hq, ?_, ?_⟩
    · rcases hc with ⟨rfl, rfl⟩ | ⟨rfl, rfl⟩ <;>
        simp only [World.gpu, Setup.transfer, Client.transferWr, toNat_start hlocFits,
          toNat_start hremFits, UInt32.ofNat_toNat, Memory.copy, Function.update_self,
          Command.apply]
    · rcases hc with ⟨rfl, rfl⟩ | ⟨rfl, rfl⟩ <;>
        simp only [Setup.transfer, Client.transferWr, toNat_start hlocFits, toNat_start hremFits,
          UInt32.ofNat_toNat, Command.effects, if_pos hsize, List.map_cons, List.map_nil]
  · rw [if_neg hsize]
    refine ⟨w, rfl, hw, ⟨rfl, rfl, rfl⟩, hq, ?_, ?_⟩
    · rcases hc with ⟨rfl, -⟩ | ⟨rfl, -⟩
      · exact ((apply_of_size_zero hsize w.gpu).1).symm
      · exact ((apply_of_size_zero hsize w.gpu).2).symm
    · rcases hc with ⟨rfl, -⟩ | ⟨rfl, -⟩ <;> simp [Command.effects, hsize]

theorem ruins_transfer (hop : Client.IsTransfer op opcode) (hw : w.Idle)
    (hbad : w.net.qpError = true ∨ ¬ (loc.size > 0 →
      (∃ q ∈ st.localRegion loc.basePtr, Fits q.1 loc loc.size.toNat) ∧
        ∃ mr ∈ st.remoteRegion rem.basePtr, Fits mr rem loc.size.toNat)) :
    Ruins w (Prog.interp (st.answer wraps)
      (if loc.size > 0 then Client.transferArm st.session op loc rem else pure none) w) := by
  by_cases hsize : loc.size > 0
  · rw [if_pos hsize]
    exact ruins_transferArm hop hw (hbad.imp_right fun h h' => h fun _ => h')
  · rw [if_neg hsize]
    have hq : w.net.qpError = true := hbad.resolve_right fun h => h fun hpos => absurd hpos hsize
    exact .inl ⟨w, rfl, hw, ⟨rfl, rfl, rfl⟩, hq, Quiet.refl _⟩

end Transfers

/-! ### Announcements -/

/-- The environment once the worker has written its page. -/
def World.written (w : World) (buf : MemBuffer) (bytes : List UInt8) : World :=
  { w with net := w.net.writePage buf bytes }

theorem interp_completeArm {reqId : ReqId}
    (h : (Client.announcement reqId).serializedSize ≤ cpuBufferBaseSize) :
    Prog.interp (st.answer wraps) (Client.completeArm st.session reqId) w =
      Prog.interp (st.answer wraps)
        ((postAndPoll (Client.announcementWr st.session reqId) "write_metadata"
          "poll_write_comp").run.bind (Client.completeEnd reqId))
        { w.written st.session.cpuBuffer (Client.announcement reqId).serialize with
          reqs := w.reqs.record reqId } := by
  rw [Client.completeArm_of_fits h]
  rfl

theorem serves_complete {reqId : ReqId} (hw : w.Idle) (hq : w.net.qpError = false)
    (hv : st.Valid (.complete reqId)) :
    ∃ w', Prog.interp (st.answer wraps) (Client.arm st.session (.complete reqId)) w =
        .done none w' ∧
      Serves (.complete reqId) w w' := by
  obtain ⟨w', hrun, hidle, hqueue, hworks, hclient, hserver, heffects⟩ := interp_announce st wraps
    (n := Client.announcement reqId)
    (w := { w.written st.session.cpuBuffer (Client.announcement reqId).serialize with
      reqs := w.reqs.record reqId }) hv hw hq rfl "write_metadata" "poll_write_comp"
  refine ⟨w', ?_, hidle, hqueue, hworks, GpuMemories.ext hclient hserver, heffects⟩
  rw [Client.arm, interp_completeArm hv, Prog.interp_bind, Client.announcementWr, hrun]
  rfl

theorem ruins_complete {reqId : ReqId} (hw : w.Idle)
    (hbad : w.net.qpError = true ∨ ¬ st.Valid (.complete reqId)) :
    Ruins w (Prog.interp (st.answer wraps) (Client.arm st.session (.complete reqId)) w) := by
  by_cases hv : st.Valid (.complete reqId)
  · have hq : w.net.qpError = true := hbad.resolve_right (not_not_intro hv)
    obtain ⟨e, he⟩ := interp_postAndPoll_of_refuses st wraps
      (w := { w.written st.session.cpuBuffer (Client.announcement reqId).serialize with
        reqs := w.reqs.record reqId })
      (Client.announcementWr st.session reqId) hw (.inl hq) "write_metadata" "poll_write_comp"
    rw [Client.arm, interp_completeArm hv, Prog.interp_bind, he]
    exact .inl ⟨_, rfl, hw, ⟨rfl, rfl, rfl⟩, rfl, ⟨rfl, rfl, rfl⟩⟩
  · rw [Client.arm, Client.completeArm_of_not_fits hv]
    exact .inr ⟨trivial, ⟨rfl, rfl, rfl⟩⟩

/-- **Every valid command** on a working queue pair is carried out. -/
theorem serves_arm (wraps : Bool) {w : World} (hw : w.Idle) (hq : w.net.qpError = false)
    (hv : st.Valid c) (hc : c ≠ .disconnect) :
    ∃ w', Prog.interp (st.answer wraps) (Client.arm st.session c) w = .done none w' ∧
      Serves c w w' := by
  cases c with
  | send loc rem => exact serves_transfer Client.isTransfer_write hw hq (.inl ⟨rfl, rfl⟩) hv
  | recv loc rem => exact serves_transfer Client.isTransfer_read hw hq (.inr ⟨rfl, rfl⟩) hv
  | complete reqId => exact serves_complete hw hq hv
  | disconnect => exact absurd rfl hc

/-- **Every other command** that is no disconnect ruins the connection or finds it ruined. -/
theorem ruins_arm (st : Setup) (wraps : Bool) {w : World} (hw : w.Idle)
    (hbad : w.net.qpError = true ∨ ¬ st.Valid c) (hc : c ≠ .disconnect) :
    Ruins w (Prog.interp (st.answer wraps) (Client.arm st.session c) w) := by
  cases c with
  | send loc rem => exact ruins_transfer Client.isTransfer_write hw hbad
  | recv loc rem => exact ruins_transfer Client.isTransfer_read hw hbad
  | complete reqId => exact ruins_complete hw hbad
  | disconnect => exact absurd rfl hc

/-! ### The final disconnect -/

theorem interp_disconnectArm :
    Prog.interp (st.answer wraps) (Client.disconnectArm st.session) w =
      Prog.interp (st.answer wraps)
        ((postAndPoll (Client.doneWr st.session) "write_metadata" "poll_write_comp").run.bind
          Client.disconnectEnd)
        (w.written st.session.cpuBuffer Notification.complete.serialize) := by
  rw [Client.disconnectArm_eq]
  rfl

/-- A disconnect on a working queue pair notifies the server and ends the worker. -/
theorem interp_arm_disconnect (st : Setup) (wraps : Bool) {w : World} (hw : w.Idle)
    (hq : w.net.qpError = false) :
    ∃ w', Prog.interp (st.answer wraps) (Client.arm st.session .disconnect) w =
        .done (some ()) w' ∧
      w'.gpu = w.gpu ∧
      w'.net.effects = w.net.effects ++ Command.disconnect.effects.map fun e => (w.taken, e) := by
  have hsize : Notification.complete.serializedSize = 5 := Notification.serializedSize_none 1
  obtain ⟨w', hrun, -, -, -, hclient, hserver, heffects⟩ := interp_announce st wraps
    (n := .complete) (w := w.written st.session.cpuBuffer Notification.complete.serialize)
    (by rw [hsize]; decide) hw hq rfl "write_metadata" "poll_write_comp"
  refine ⟨w', ?_, GpuMemories.ext hclient hserver, heffects⟩
  have hwr : metadataWr st.session.cpuConn st.session.cpuMr st.session.cpuBuffer
      (UInt16.ofNat Notification.complete.serializedSize) = Client.doneWr st.session := by
    rw [hsize]
    rfl
  rw [hwr] at hrun
  rw [Client.arm, interp_disconnectArm, Prog.interp_bind, hrun]
  rfl

/-- A disconnect on a queue pair that has failed aborts the worker. -/
theorem aborted_arm_disconnect (st : Setup) (wraps : Bool) {w : World} (hw : w.Idle)
    (hq : w.net.qpError = true) :
    Setup.Aborted (Prog.interp (st.answer wraps) (Client.arm st.session .disconnect) w) ∧
      Quiet w.net
        (Prog.interp (st.answer wraps) (Client.arm st.session .disconnect) w).state.net := by
  obtain ⟨e, he⟩ := interp_postAndPoll_of_refuses st wraps
    (w := w.written st.session.cpuBuffer Notification.complete.serialize)
    (Client.doneWr st.session) hw (.inl hq) "write_metadata" "poll_write_comp"
  rw [Client.arm, interp_disconnectArm, Prog.interp_bind, he]
  exact ⟨trivial, ⟨rfl, rfl, rfl⟩⟩

/-! ### The loop -/

/-- The run of the worker for at most `n` commands. -/
def workerRun (st : Setup) (wraps : Bool) (n : ℕ) (w : World) : Outcome iface World (Option Unit) :=
  Prog.interp (st.answer wraps) (Client.worker st.session n) w

/-- The environment once the next command has been taken. -/
def World.took (w : World) (cs : List Command) : World :=
  { w with commands := cs, taken := w.taken + 1 }

theorem workerRun_nil {n : ℕ} (h : w.commands = []) :
    workerRun st wraps (n + 1) w = if w.closed then .done (some ()) w else .stuck .recvCmd w := by
  obtain ⟨net, commands, closed, taken, sq, cq, posts, early, reqs⟩ := w
  cases h
  cases closed <;> rfl

/-- Go on after a turn, unless it was the last. -/
def nextTurn (o : Outcome iface World (Option Unit))
    (k : World → Outcome iface World (Option Unit)) : Outcome iface World (Option Unit) :=
  match o with
  | .done none w' => k w'
  | .done (some u) w' => .done (some u) w'
  | .stuck op w' => .stuck op w'

theorem nextTurn_of_aborted {o : Outcome iface World (Option Unit)}
    {k : World → Outcome iface World (Option Unit)} (h : Setup.Aborted o) : nextTurn o k = o := by
  cases o with
  | done o w' => exact absurd h id
  | stuck op w' => rfl

theorem workerRun_cons {n : ℕ} {cs : List Command} (h : w.commands = c :: cs) :
    workerRun st wraps (n + 1) w =
      nextTurn (Prog.interp (st.answer wraps) (Client.arm st.session c) (w.took cs))
        (workerRun st wraps n) := by
  have hrecv : st.answer wraps .recvCmd w = some (some c, w.took cs) := by
    simp only [Setup.answer, h, World.took]
  change Prog.interp (st.answer wraps) (Prog.vis (S := iface) .recvCmd fun r => Prog.bind _ _) w = _
  rw [Prog.interp_vis_some hrecv]
  change Prog.interp (st.answer wraps) ((Client.arm st.session c).bind _) (w.took cs) = _
  rw [Prog.interp_bind]
  cases Prog.interp (st.answer wraps) (Client.arm st.session c) (w.took cs) with
  | stuck op w' => rfl
  | done o w' => cases o <;> rfl

/-! ### Whole queues -/

/-- The commands that are carried out: those before the first one that is not valid, and none after
the first disconnect. -/
def Setup.effective (st : Setup) : List Command → List Command
  | [] => []
  | c :: cs =>
    if st.Valid c then if c = .disconnect then [c] else c :: st.effective cs
    else []

/-- The effects of commands, each with the number of its command. -/
def numbered : ℕ → List Command → List (ℕ × Effect)
  | _, [] => []
  | n, c :: cs => c.effects.map (fun e => (n, e)) ++ numbered (n + 1) cs

/-- Nothing has moved since `net`, and if there is a disconnect left it has come to a panic. -/
def Lost (net : Net) (cs : List Command) (o : Outcome iface World (Option Unit)) : Prop :=
  Quiet net o.state.net ∧ (.disconnect ∈ cs → Setup.Aborted o)

/-- A turn that ruins the connection loses what is left of the queue, if a queue pair that has
failed does. -/
theorem lost_nextTurn {o : Outcome iface World (Option Unit)}
    {k : World → Outcome iface World (Option Unit)} (cs : List Command) (h : Ruins w o)
    (hk : ∀ w', w'.Idle → w'.net.qpError = true → w'.commands = w.commands →
      Lost w'.net cs (k w')) : Lost w.net cs (nextTurn o k) := by
  rcases h with ⟨w', rfl, hidle, hqueue, hq, hquiet⟩ | ⟨habort, hquiet⟩
  · obtain ⟨hquiet', hdisc⟩ := hk w' hidle hq hqueue.1
    exact ⟨hquiet.trans hquiet', hdisc⟩
  · rw [nextTurn_of_aborted habort]
    exact ⟨hquiet, fun _ => habort⟩

/-- **After the queue pair has failed** everything is lost. -/
theorem workerRun_of_ruined (st : Setup) (wraps : Bool) {w : World} {cs : List Command} {n : ℕ}
    (hw : w.Idle) (hq : w.net.qpError = true)
    (hcs : w.commands = cs) (hn : cs.length < n) : Lost w.net cs (workerRun st wraps n w) := by
  induction cs generalizing w n with
  | nil =>
    obtain ⟨n, rfl⟩ := Nat.exists_eq_add_one_of_ne_zero (Nat.ne_zero_of_lt hn)
    rw [workerRun_nil hcs]
    refine ⟨?_, nofun⟩
    split <;> exact Quiet.refl _
  | cons c cs ih =>
    obtain ⟨n, rfl⟩ := Nat.exists_eq_add_one_of_ne_zero (Nat.ne_zero_of_lt hn)
    rw [workerRun_cons hcs]
    by_cases hc : c = .disconnect
    · subst hc
      obtain ⟨habort, hquiet⟩ := aborted_arm_disconnect st wraps (w := w.took cs) hw hq
      rw [nextTurn_of_aborted habort]
      exact ⟨hquiet, fun _ => habort⟩
    · have hruins := ruins_arm st wraps (w := w.took cs) hw (.inl hq) hc
      obtain ⟨hquiet, hdisc⟩ := lost_nextTurn cs hruins fun w' hidle hq' hcs' =>
        ih (n := n) hidle hq' hcs' (by simpa using hn)
      exact ⟨hquiet, fun h => hdisc ((List.mem_cons.mp h).resolve_left (Ne.symm hc))⟩

/-- How the run of a queue ends: by the disconnect if that is carried out, by a panic if there is
one that is not, and at the end of the channel if every command is valid and none a disconnect. -/
structure Ends (st : Setup) (cs : List Command) (o : Outcome iface World (Option Unit)) : Prop where
  /-- The disconnect is carried out. -/
  done : .disconnect ∈ st.effective cs → ∃ w', o = .done (some ()) w'
  /-- It is not. -/
  aborted : .disconnect ∈ cs → .disconnect ∉ st.effective cs → Setup.Aborted o
  /-- Nothing goes wrong. -/
  drained : (∀ c ∈ cs, st.Valid c) → ∃ w', o = .done (some ()) w' ∨ o = .stuck .recvCmd w'

/-- What the run `o` of a queue from `w` comes to when the queue pair works. -/
structure Carries (st : Setup) (cs : List Command) (w : World)
    (o : Outcome iface World (Option Unit)) : Prop where
  /-- The commands have been applied, in their order. -/
  gpu : o.state.gpu = applyAll (st.effective cs) w.gpu
  /-- Their effects have been added. -/
  effects : o.state.net.effects = w.net.effects ++ numbered (w.taken + 1) (st.effective cs)
  /-- And this is how it ends. -/
  ends : Ends st cs o

section Carries

variable {cs : List Command} {o : Outcome iface World (Option Unit)}

theorem carries_nil {n : ℕ} (h : w.commands = []) :
    Carries st [] w (workerRun st wraps (n + 1) w) := by
  have hnone : w.net.effects = w.net.effects ++ numbered (w.taken + 1) [] :=
    (List.append_nil _).symm
  rw [workerRun_nil h]
  cases w.closed with
  | true => exact ⟨rfl, hnone, nofun, nofun, fun _ => ⟨w, .inl rfl⟩⟩
  | false => exact ⟨rfl, hnone, nofun, nofun, fun _ => ⟨w, .inr rfl⟩⟩

/-- The disconnect is the last turn. -/
theorem carries_disconnect {k : World → Outcome iface World (Option Unit)} (hw : w.Idle)
    (hq : w.net.qpError = false) :
    Carries st (.disconnect :: cs) w (nextTurn
      (Prog.interp (st.answer wraps) (Client.arm st.session .disconnect) (w.took cs)) k) := by
  have heff : st.effective (.disconnect :: cs) = [.disconnect] := by
    rw [Setup.effective, if_pos (show st.Valid .disconnect from trivial), if_pos rfl]
  obtain ⟨w', hrun, hgpu, heffects⟩ := interp_arm_disconnect st wraps (w := w.took cs) hw hq
  rw [hrun]
  refine ⟨?_, ?_, ?_, ?_, ?_⟩
  · rw [heff]
    exact hgpu
  · rw [heff]
    exact heffects.trans (by simp [numbered, World.took])
  · exact fun _ => ⟨w', rfl⟩
  · exact fun _ h => absurd (by simp [heff]) h
  · exact fun _ => ⟨w', .inl rfl⟩

/-- A command is carried out, and then the rest. -/
theorem Carries.cons (h : Carries st cs w' o) (hv : st.Valid c) (hc : c ≠ .disconnect)
    (hserves : Serves c (w.took cs) w') : Carries st (c :: cs) w o := by
  have heff : st.effective (c :: cs) = c :: st.effective cs := by
    rw [Setup.effective, if_pos hv, if_neg hc]
  refine ⟨?_, ?_, ?_, ?_, ?_⟩
  · rw [heff, applyAll_cons, h.gpu, hserves.gpu]
    rfl
  · rw [heff, h.effects, hserves.effects, hserves.queue.2.2, numbered, List.append_assoc]
    rfl
  · rw [heff]
    exact fun hmem => h.ends.done ((List.mem_cons.mp hmem).resolve_left (Ne.symm hc))
  · rw [heff]
    exact fun hmem hnot => h.ends.aborted ((List.mem_cons.mp hmem).resolve_left (Ne.symm hc))
      fun hmem' => hnot (List.mem_cons_of_mem c hmem')
  · exact fun hall => h.ends.drained fun d hd => hall d (List.mem_cons_of_mem c hd)

/-- From a command that is not valid on, everything is lost. -/
theorem Lost.carries (h : Lost w.net cs o) (hv : ¬ st.Valid c) : Carries st (c :: cs) w o := by
  obtain ⟨hquiet, hdisc⟩ := h
  have heff : st.effective (c :: cs) = [] := by rw [Setup.effective, if_neg hv]
  have hc : c ≠ .disconnect := fun h => hv (h ▸ trivial)
  refine ⟨?_, ?_, ?_, ?_, ?_⟩
  · rw [heff]
    exact GpuMemories.ext hquiet.client hquiet.server
  · rw [heff]
    exact hquiet.effects.trans (List.append_nil _).symm
  · rw [heff]
    nofun
  · exact fun hmem _ => hdisc ((List.mem_cons.mp hmem).resolve_left (Ne.symm hc))
  · exact fun hall => absurd (hall c List.mem_cons_self) hv

end Carries

/-- **A working queue pair** carries out the commands up to the first that is not valid or is a
disconnect, in their order, and nothing after it. -/
theorem workerRun_of_works {cs : List Command} {n : ℕ} (hw : w.Idle) (hq : w.net.qpError = false)
    (hcs : w.commands = cs) (hn : cs.length < n) : Carries st cs w (workerRun st wraps n w) := by
  induction cs generalizing w n with
  | nil =>
    obtain ⟨n, rfl⟩ := Nat.exists_eq_add_one_of_ne_zero (Nat.ne_zero_of_lt hn)
    exact carries_nil hcs
  | cons c cs ih =>
    obtain ⟨n, rfl⟩ := Nat.exists_eq_add_one_of_ne_zero (Nat.ne_zero_of_lt hn)
    have hn' : cs.length < n := by simpa using hn
    rw [workerRun_cons hcs]
    by_cases hc : c = .disconnect
    · subst hc
      exact carries_disconnect hw hq
    · by_cases hv : st.Valid c
      · obtain ⟨w', hrun, hserves⟩ := serves_arm wraps (w := w.took cs) hw hq hv hc
        rw [hrun]
        exact (ih hserves.idle hserves.works hserves.queue.1 hn').cons hv hc hserves
      · have hruins := ruins_arm st wraps (w := w.took cs) hw (.inr hv) hc
        have hlost := lost_nextTurn cs hruins fun w' hidle hq' hcs' =>
          workerRun_of_ruined st wraps (n := n) hidle hq' hcs' hn'
        exact Lost.carries (w := w) hlost hv

/-! ### From the start -/

/-- A connected client that has not taken a command yet. -/
structure Start where
  /-- The client's memory. -/
  client : Memory
  /-- The server's memory. -/
  server : Memory
  /-- Whether the channel is closed after the last command. -/
  closed : Bool
  /-- Which requests are executed right when they are posted. -/
  early : ℕ → Bool
  /-- The client's table. -/
  reqs : CompletionReqs

/-- The environment, with these commands queued. -/
def Start.world (i : Start) (cs : List Command) : World :=
  ⟨⟨i.client, i.server, false, []⟩, cs, i.closed, 0, [], [], 0, i.early, i.reqs⟩

/-- The run of the worker on a queue, until it has drained it. -/
def drained (st : Setup) (wraps : Bool) (i : Start) (cs : List Command) :
    Outcome iface World (Option Unit) := workerRun st wraps (cs.length + 1) (i.world cs)

theorem drained_spec (st : Setup) (wraps : Bool) (i : Start) (cs : List Command) :
    Carries st cs (i.world cs) (drained st wraps i cs) :=
  workerRun_of_works ⟨rfl, rfl⟩ rfl rfl (Nat.lt_succ_self _)

end Fabric

end RdmaTransport
