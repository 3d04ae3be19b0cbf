import RdmaTransport.Footprints
import RdmaTransport.Vllm.BadCommand
import RdmaTransport.Vllm.Calls

/-!
# Transfers stay where they are asked for

The methods of a client take any base pointers, offsets and sizes, and a worker adds them up without
looking at them. The card refuses what leaves a region, and the worker posts what it has been asked
for: of a request that is not refused, both ranges are those of the command. So at every moment,
also between two operations of the worker, the GPU memories are those that the first few of the
commands make, one after the other, and a byte that has changed lies in the target block of a
transfer among them.

What the bytes inside the registered buffers become depends on the bytes inside them and on the
calls alone: nothing that was not registered reaches the other side.

## Main definitions

* `Setup.OnClient`, `Setup.OnServer` — the addresses inside the registered buffers
* `Setup.Paired` — a request from page to page, or from GPU memory to GPU memory
* `replay` — the GPU memories that effects make
* `Confined` — where the bytes of the GPU memories come from
* `Setup.Same` — two states of the memories that agree on the registered buffers

## Main results

* `confined_of_reach` — every byte that changes, and every moment
* `same_of_reach` — bytes inside depend on nothing outside
-/

namespace RdmaTransport

open Interaction

namespace Fabric

variable {st : Setup} {wraps : Bool} {c : Command} {cs : List Command} {m m' : GpuMemories}
  {loc rem b : TensorBlock} {a n : ℕ}

/-! ### Registered addresses -/

/-- The address lies in the region. -/
def Within (mr : IbvMr) (a : ℕ) : Prop := mr.addr.toNat ≤ a ∧ a < mr.addr.toNat + mr.length

/-- The address lies in a registered buffer of the client. -/
def Setup.OnClient (st : Setup) (a : ℕ) : Prop := ∃ q ∈ st.clientGpu, Within q.1 a

/-- The address lies in a registered buffer of the server. -/
def Setup.OnServer (st : Setup) (a : ℕ) : Prop := ∃ mr ∈ st.serverGpu, Within mr a

/-- The two agree on the registered buffers of both sides. -/
structure Setup.Same (st : Setup) (m m' : GpuMemories) : Prop where
  /-- The client's. -/
  client : ∀ a, st.OnClient a → m.client a = m'.client a
  /-- The server's. -/
  server : ∀ a, st.OnServer a → m.server a = m'.server a

/-- A range that is not empty. -/
theorem size_pos_of_mem {size : UInt32} {x : ℕ} (h : x ≤ a ∧ a < x + size.toNat) : size > 0 := by
  refine UInt32.lt_iff_toNat_lt.mpr ?_
  rw [UInt32.toNat_zero]
  omega

theorem onClient_of_fits (h : ∃ q ∈ st.localRegion b.basePtr, Fits q.1 b n)
    (ha : b.start ≤ a ∧ a < b.start + n) : st.OnClient a := by
  obtain ⟨q, hq, -, hle⟩ := h
  refine ⟨q, mem_of_localRegion hq, ?_⟩
  rw [TensorBlock.start] at ha
  rw [Within, addr_of_localRegion hq]
  omega

theorem onServer_of_fits (h : ∃ mr ∈ st.remoteRegion b.basePtr, Fits mr b n)
    (ha : b.start ≤ a ∧ a < b.start + n) : st.OnServer a := by
  obtain ⟨mr, hmr, -, hle⟩ := h
  refine ⟨mr, mem_of_remoteRegion hmr, ?_⟩
  rw [TensorBlock.start] at ha
  rw [Within, addr_of_remoteRegion hmr]
  omega

/-- The two ranges of a valid transfer. -/
theorem ranges_of_valid (loc rem : TensorBlock) (hv : st.Valid (.send loc rem)) :
    (∀ a, loc.start ≤ a ∧ a < loc.start + loc.size.toNat → st.OnClient a) ∧
      ∀ a, rem.start ≤ a ∧ a < rem.start + loc.size.toNat → st.OnServer a :=
  ⟨fun _ ha => onClient_of_fits (hv (size_pos_of_mem ha)).1 ha,
    fun _ ha => onServer_of_fits (hv (size_pos_of_mem ha)).2 ha⟩

/-! ### One command -/

/-- The address is that of one of the first `size` bytes from the start of the block. -/
def Covers (b : TensorBlock) (size : UInt32) (a : ℕ) : Prop :=
  b.start ≤ a ∧ a < b.start + size.toNat

/-- **A valid command** changes bytes of its target only, and these are registered. -/
theorem changed_of_apply (hv : st.Valid c) (m : GpuMemories) :
    (∀ a, (c.apply m).client a ≠ m.client a →
      st.OnClient a ∧ ∃ loc rem, c = .recv loc rem ∧ Covers loc loc.size a) ∧
    ∀ a, (c.apply m).server a ≠ m.server a →
      st.OnServer a ∧ ∃ loc rem, c = .send loc rem ∧ Covers rem loc.size a := by
  cases c with
  | send loc rem =>
    obtain ⟨-, hserver⟩ := ranges_of_valid loc rem hv
    refine ⟨fun a ha => absurd rfl ha, fun a ha => ?_⟩
    have hin : Covers rem loc.size a := by_contra fun h => ha (copyRange_apply_of_not_mem h)
    exact ⟨hserver a hin, loc, rem, rfl, hin⟩
  | recv loc rem =>
    obtain ⟨hclient, -⟩ := ranges_of_valid loc rem hv
    refine ⟨fun a ha => ?_, fun a ha => absurd rfl ha⟩
    have hin : Covers loc loc.size a := by_contra fun h => ha (copyRange_apply_of_not_mem h)
    exact ⟨hclient a hin, loc, rem, rfl, hin⟩
  | complete reqId => exact ⟨fun a ha => absurd rfl ha, fun a ha => absurd rfl ha⟩
  | disconnect => exact ⟨fun a ha => absurd rfl ha, fun a ha => absurd rfl ha⟩

/-- A valid command makes the registered bytes from registered bytes. -/
theorem apply_same (hv : st.Valid c) (h : st.Same m m') : st.Same (c.apply m) (c.apply m') := by
  cases c with
  | send loc rem =>
    obtain ⟨hclient, -⟩ := ranges_of_valid loc rem hv
    exact ⟨h.client, fun a ha =>
      copyRange_congr (h.server a ha) fun b hb => h.client b (hclient b hb)⟩
  | recv loc rem =>
    obtain ⟨-, hserver⟩ := ranges_of_valid loc rem hv
    exact ⟨fun a ha =>
      copyRange_congr (h.client a ha) fun b hb => h.server b (hserver b hb), h.server⟩
  | complete reqId => exact h
  | disconnect => exact h

/-! ### Many commands -/

theorem changed_of_applyAll (hv : ∀ c ∈ cs, st.Valid c) (m : GpuMemories) :
    (∀ a, (applyAll cs m).client a ≠ m.client a →
      st.OnClient a ∧ ∃ loc rem, .recv loc rem ∈ cs ∧ Covers loc loc.size a) ∧
    ∀ a, (applyAll cs m).server a ≠ m.server a →
      st.OnServer a ∧ ∃ loc rem, .send loc rem ∈ cs ∧ Covers rem loc.size a := by
  induction cs generalizing m with
  | nil => exact ⟨fun a ha => absurd rfl ha, fun a ha => absurd rfl ha⟩
  | cons c cs ih =>
    obtain ⟨hclient, hserver⟩ := changed_of_apply (hv c List.mem_cons_self) m
    obtain ⟨hclient', hserver'⟩ := ih (fun d hd => hv d (List.mem_cons_of_mem c hd)) (c.apply m)
    refine ⟨fun a ha => ?_, fun a ha => ?_⟩
    · by_cases hlater : (applyAll cs (c.apply m)).client a = (c.apply m).client a
      · obtain ⟨hon, loc, rem, rfl, hin⟩ := hclient a fun h => ha (hlater.trans h)
        exact ⟨hon, loc, rem, List.mem_cons_self, hin⟩
      · obtain ⟨hon, loc, rem, hmem, hin⟩ := hclient' a hlater
        exact ⟨hon, loc, rem, List.mem_cons_of_mem c hmem, hin⟩
    · by_cases hlater : (applyAll cs (c.apply m)).server a = (c.apply m).server a
      · obtain ⟨hon, loc, rem, rfl, hin⟩ := hserver a fun h => ha (hlater.trans h)
        exact ⟨hon, loc, rem, List.mem_cons_self, hin⟩
      · obtain ⟨hon, loc, rem, hmem, hin⟩ := hserver' a hlater
        exact ⟨hon, loc, rem, List.mem_cons_of_mem c hmem, hin⟩

theorem applyAll_same (hv : ∀ c ∈ cs, st.Valid c) (h : st.Same m m') :
    st.Same (applyAll cs m) (applyAll cs m') := by
  induction cs generalizing m m' with
  | nil => exact h
  | cons c cs ih =>
    exact ih (fun d hd => hv d (List.mem_cons_of_mem c hd)) (apply_same (hv c List.mem_cons_self) h)

/-! ### Effects -/

/-- The GPU memories after an effect. -/
def Effect.apply : Effect → GpuMemories → GpuMemories
  | .pushed la ra n, m => { m with server := copyRange m.server m.client ra la n }
  | .pulled la ra n, m => { m with client := copyRange m.client m.server la ra n }
  | .notified _, m => m

/-- The GPU memories that effects make, one after the other. -/
def replay (effects : List (ℕ × Effect)) (m : GpuMemories) : GpuMemories :=
  effects.foldl (fun m e => Effect.apply e.2 m) m

theorem replay_append (es fs : List (ℕ × Effect)) (m : GpuMemories) :
    replay (es ++ fs) m = replay fs (replay es m) := List.foldl_append

/-- A command has one effect or none, and that is what it does to the GPU memories. -/
theorem effects_cases (c : Command) : (c.effects = [] ∧ ∀ m, c.apply m = m) ∨
    ∃ e, c.effects = [e] ∧ ∀ m, c.apply m = Effect.apply e m := by
  cases c with
  | send loc rem =>
    by_cases hsize : loc.size > 0
    · exact .inr ⟨_, if_pos hsize, fun _ => rfl⟩
    · exact .inl ⟨if_neg hsize, fun m => (apply_of_size_zero hsize m).1⟩
  | recv loc rem =>
    by_cases hsize : loc.size > 0
    · exact .inr ⟨_, if_pos hsize, fun _ => rfl⟩
    · exact .inl ⟨if_neg hsize, fun m => (apply_of_size_zero hsize m).2⟩
  | complete reqId => exact .inr ⟨_, rfl, fun _ => rfl⟩
  | disconnect => exact .inr ⟨_, rfl, fun _ => rfl⟩

/-- Replaying the effects of commands is applying the commands. -/
theorem replay_numbered (i : ℕ) (cs : List Command) (m : GpuMemories) :
    replay (numbered i cs) m = applyAll cs m := by
  induction cs generalizing i m with
  | nil => rfl
  | cons c cs ih =>
    rw [numbered, replay_append, ih, applyAll_cons]
    rcases effects_cases c with ⟨heffects, happly⟩ | ⟨e, heffects, happly⟩ <;>
      rw [heffects, happly] <;> rfl

/-- What comes first of the effects of commands are the effects of the first commands. -/
theorem exists_numbered_of_prefix {es : List (ℕ × Effect)} {i : ℕ} (h : es <+: numbered i cs) :
    ∃ ds, ds <+: cs ∧ es = numbered i ds := by
  induction cs generalizing es i with
  | nil => exact ⟨[], List.prefix_rfl, List.prefix_nil.mp h⟩
  | cons c cs ih =>
    rw [numbered] at h
    rcases effects_cases c with ⟨heffects, -⟩ | ⟨e, heffects, -⟩
    · rw [heffects, List.map_nil, List.nil_append] at h
      obtain ⟨ds, hds, rfl⟩ := ih h
      refine ⟨c :: ds, List.cons_prefix_cons.mpr ⟨rfl, hds⟩, ?_⟩
      rw [numbered, heffects, List.map_nil, List.nil_append]
    · rw [heffects, List.map_singleton, List.singleton_append] at h
      cases es with
      | nil => exact ⟨[], List.nil_prefix, rfl⟩
      | cons x es =>
        obtain ⟨rfl, hes⟩ := List.cons_prefix_cons.mp h
        obtain ⟨ds, hds, rfl⟩ := ih hes
        refine ⟨c :: ds, List.cons_prefix_cons.mpr ⟨rfl, hds⟩, ?_⟩
        rw [numbered, heffects, List.map_singleton, List.singleton_append]

/-! ### Requests -/

/-- A request from page to page, or from GPU memory to GPU memory. -/
def Setup.Paired (st : Setup) (wr : IbvSendWr) : Prop :=
  (wr.opcode = .rdmaWriteWithImm ∧ wr.sge.lkey = st.clientCpu.lkey ∧
      wr.rkey = st.serverCpu.rkey) ∨
    ((wr.opcode = .rdmaWrite ∨ wr.opcode = .rdmaRead) ∧
      (∃ q ∈ st.clientGpu, wr.sge.lkey = q.1.lkey) ∧ ∃ mr ∈ st.serverGpu, wr.rkey = mr.rkey)

/-- **What the worker posts** is paired. -/
theorem paired_of_requests {wr : IbvSendWr} (h : wr ∈ Client.requests st.session c) :
    st.Paired wr := by
  have htransfer {opcode : WrOpcode} (hop : opcode = .rdmaWrite ∨ opcode = .rdmaRead)
      {loc rem : TensorBlock} (h : wr ∈ Client.transferRequests st.session opcode loc rem) :
      st.Paired wr := by
    obtain ⟨-, conn, q, hconn, hq, rfl⟩ := Client.mem_transferRequests.mp h
    rw [lookup_local] at hq
    rw [lookup_remote] at hconn
    obtain ⟨mr, hmr, rfl⟩ := Option.map_eq_some_iff.mp hconn
    exact .inr ⟨hop, ⟨q, mem_of_localRegion hq, rfl⟩, mr, mem_of_remoteRegion hmr, rfl⟩
  cases c with
  | send loc rem => exact htransfer (.inl rfl) h
  | recv loc rem => exact htransfer (.inr rfl) h
  | complete reqId =>
    rw [Client.requests] at h
    split at h
    · rw [List.mem_singleton.mp h]
      exact .inl ⟨rfl, rfl, rfl⟩
    · cases h
  | disconnect =>
    rw [List.mem_singleton.mp h]
    exact .inl ⟨rfl, rfl, rfl⟩

section Requests

variable {key : IbvMr → UInt32} {rs : Regions} {space : Space} {k : UInt32} {mr : IbvMr}
  {wr : IbvSendWr} {net : Net} {w w' : World} {op : Op} {r : op.Ans}

theorem eq_page_of_resolve (hk : k = key rs.cpu) (h : rs.resolve key k a n = some space) :
    space = .page := by
  rw [Regions.resolve, Regions.find, if_pos hk.symm] at h
  exact (Option.some.inj (Option.ite_none_right_eq_some.mp h).2).symm

theorem eq_gpu_of_resolve (hkeys : rs.KeysDistinct key) (hmr : mr ∈ rs.gpu) (hk : k = key mr)
    (h : rs.resolve key k a n = some space) : space = .gpu := by
  rw [hk, rs.resolve_gpu hkeys hmr] at h
  exact (Option.some.inj (Option.ite_none_right_eq_some.mp h).2).symm

/-- The GPU memories are what the effects so far make of `m`. -/
def Replays (m : GpuMemories) (net : Net) : Prop :=
  (⟨net.client .gpu, net.server .gpu⟩ : GpuMemories) = replay net.effects m

/-- From page to page nothing happens to the GPU memories, and from GPU memory to GPU memory what
the effect says. -/
theorem Replays.transfer (h : Replays m net) (hwr : st.Paired wr) (cmd : ℕ) {loc rem : Space}
    (hloc : st.clientRegions.resolve IbvMr.lkey wr.sge.lkey wr.sge.addr.toNat
      wr.sge.length.toNat = some loc)
    (hrem : st.serverRegions.resolve IbvMr.rkey wr.rkey wr.remoteAddr.toNat
      wr.sge.length.toNat = some rem) : Replays m (st.transfer cmd net wr loc rem) := by
  rcases hwr with ⟨hop, hlkey, hrkey⟩ | ⟨hop, ⟨q, hq, hlkey⟩, mr, hmr, hrkey⟩
  · obtain rfl := eq_page_of_resolve hlkey hloc
    obtain rfl := eq_page_of_resolve hrkey hrem
    rw [Replays] at h ⊢
    simp only [Setup.transfer, hop, replay_append, ← h]
    rfl
  · obtain rfl := eq_gpu_of_resolve st.lkeys (List.mem_map_of_mem hq) hlkey hloc
    obtain rfl := eq_gpu_of_resolve st.rkeys hmr hrkey hrem
    rw [Replays] at h ⊢
    rcases hop with hop | hop
    · simp only [Setup.transfer, hop, replay_append, ← h, Memory.copy, Function.update_self]
      rfl
    · simp only [Setup.transfer, hop, replay_append, ← h, Memory.copy, Function.update_self]
      rfl

/-- **One request.** -/
theorem Replays.perform (h : Replays m net) (hwr : st.Paired wr) (cmd : ℕ) :
    Replays m (st.perform cmd net wr).2 := by
  unfold Setup.perform
  split
  · exact h
  split
  next loc rem hloc hrem => exact h.transfer hwr cmd hloc hrem
  · exact h
  · exact h

/-- What every operation of the worker keeps. -/
structure Kept (st : Setup) (m : GpuMemories) (w : World) : Prop where
  /-- The GPU memories are what the effects make. -/
  replays : Replays m w.net
  /-- What is posted and not executed is paired. -/
  sq : ∀ wr ∈ w.sq, st.Paired wr

theorem Kept.drain (h : Kept st m w) : Kept st m (st.drain w) := by
  have hfold (wrs : List IbvSendWr) (hwrs : ∀ wr ∈ wrs, st.Paired wr) (w : World)
      (hw : Replays m w.net) (hsq : w.sq = []) : Kept st m (wrs.foldl st.execute w) := by
    induction wrs generalizing w with
    | nil => exact ⟨hw, fun wr hwr => by rw [List.foldl_nil, hsq] at hwr; cases hwr⟩
    | cons wr wrs ih =>
      obtain ⟨hwr, hwrs⟩ := List.forall_mem_cons.mp hwrs
      exact ih hwrs (st.execute w wr) (hw.perform hwr w.taken) hsq
  exact hfold w.sq h.sq { w with sq := [] } h.replays rfl

/-- **One operation** of the worker. -/
theorem Kept.answer (h : Kept st m w) (hop : Posting st.Paired op)
    (hr : st.answer wraps op w = some (r, w')) : Kept st m w' := by
  cases op with
  | ibvPostSend wr =>
    have hposted : Kept st m { w with sq := w.sq ++ [wr], posts := w.posts + 1 } := by
      refine ⟨h.replays, fun wr' hwr' => ?_⟩
      rcases List.mem_append.mp hwr' with hwr' | hwr'
      · exact h.sq wr' hwr'
      · rw [List.mem_singleton.mp hwr']
        exact hop
    cases hr
    split
    · exact hposted.drain
    · exact hposted
  | ibvPollCq cq =>
    cases cq with
    | recv => cases hr
    | send =>
      simp only [Setup.answer] at hr
      split at hr
      · cases hr
      · cases hr
        exact ⟨h.drain.replays, h.drain.sq⟩
  | recvCmd =>
    simp only [Setup.answer] at hr
    split at hr
    · cases hr
      exact ⟨h.replays, h.sq⟩
    · split at hr <;> cases hr
      exact h
  | writePage buf bytes =>
    cases hr
    exact ⟨h.replays, h.sq⟩
  | overflow => cases wraps <;> cases hr; exact h
  | lockReqs | unlockReqs | rdmaDisconnect | observe o =>
    cases hr
    exact h
  | putReqs reqs =>
    cases hr
    exact ⟨h.replays, h.sq⟩
  | _ => cases hr

end Requests

/-! ### Runs -/

namespace Connected

variable {s s' : Connected} {i i' : Start} {n' : ℕ}

/-- Left alone, the worker comes to the memories that the carried-out part of the queue makes. -/
theorem gpu_left (hr : Reach (Connected.step st wraps) anyStep (.start st i n) s)
    (hn : s.accepted.length < n) : (s.left st wraps).state.gpu =
      applyAll (st.effective s.accepted) ⟨i.client .gpu, i.server .gpu⟩ :=
  (carries_left (reach_worker hr) hn).gpu

/-- Wherever the worker is, the GPU memories are what has happened so far makes. -/
theorem kept_of_reach (hr : Reach (Connected.step st wraps) anyStep (.start st i n) s) :
    Kept st ⟨i.client .gpu, i.server .gpu⟩ s.worker.world := by
  have honly : (Client.worker st.session n).Only (Posting st.Paired) :=
    (Client.only_worker st.session n).mono fun _ =>
      posting_mono fun _ ⟨_, hwr⟩ => paired_of_requests hwr
  have hreaches : Reaches st wraps i n s.accepted s.worker := reach_worker hr
  have halways (w : World) : Handler.Always (.det (st.answer wraps))
      (fun op _ => Posting st.Paired op) (fun _ _ => True) (Client.worker st.session n) w :=
    Handler.Always.of_only (J := fun _ => True) honly trivial (fun _ _ hop _ => hop)
      fun _ _ _ _ _ _ _ _ => trivial
  refine (halways _).invariant ?_ hreaches ?_
  · exact ⟨rfl, nofun⟩
  · intro op w _ r w' hop hw hr
    exact hw.answer hop hr

/-- Where the bytes of the GPU memories come from, when the commands `cs` have been carried out. -/
structure Confined (st : Setup) (i : Start) (s : Connected) (cs : List Command) : Prop where
  /-- They are the first of the commands that the worker can carry out at all. -/
  first : cs <+: st.effective s.accepted
  /-- What has happened is what they stand for. -/
  effects : s.worker.world.net.effects = numbered 1 cs
  /-- The GPU memories are those that they make, one after the other. -/
  gpu : s.worker.world.gpu = applyAll cs ⟨i.client .gpu, i.server .gpu⟩
  /-- A byte of the client that has changed is registered, and in the local block of a `Recv`. -/
  client : ∀ a, s.worker.world.gpu.client a ≠ i.client .gpu a →
    st.OnClient a ∧ ∃ loc rem, .recv loc rem ∈ cs ∧ Covers loc loc.size a
  /-- A byte of the server that has changed is registered, and in the remote block of a `Send`. -/
  server : ∀ a, s.worker.world.gpu.server a ≠ i.server .gpu a →
    st.OnServer a ∧ ∃ loc rem, .send loc rem ∈ cs ∧ Covers rem loc.size a

/-- **Confinement.** Whatever is called, with whatever arguments and whenever, at every moment: the
GPU memories are those that the first few of the accepted commands make, one after the other, and a
byte that has changed is a registered byte in the target block of a transfer among them. -/
theorem confined_of_reach (hr : Reach (Connected.step st wraps) anyStep (.start st i n) s)
    (hn : s.accepted.length < n) : ∃ cs, Confined st i s cs := by
  have hcarries := carries_left (reach_worker hr) hn
  have hsoFar : s.worker.world.net.effects <+: numbered 1 (st.effective s.accepted) := by
    have hleft := effects_interp st wraps s.worker.prog s.worker.world
    have hall : (s.left st wraps).state.net.effects = numbered 1 (st.effective s.accepted) :=
      hcarries.effects
    rwa [← Connected.left, hall] at hleft
  obtain ⟨cs, hfirst, heffects⟩ := exists_numbered_of_prefix hsoFar
  have hgpu : s.worker.world.gpu = applyAll cs ⟨i.client .gpu, i.server .gpu⟩ := by
    have hkept : s.worker.world.gpu = _ := (kept_of_reach hr).replays
    rw [hkept, heffects, replay_numbered]
  obtain ⟨hclient, hserver⟩ := changed_of_applyAll
    (fun c hc => valid_of_mem_effective (hfirst.subset hc)) ⟨i.client .gpu, i.server .gpu⟩
  exact ⟨cs, hfirst, heffects, hgpu, by rw [hgpu]; exact hclient, by rw [hgpu]; exact hserver⟩

/-- A transfer inside the buffers, and one that leaves its buffer. The worker has posted the
first. -/
def strayCalls : List Label :=
  [.call (.send ⟨65536, 16, 8⟩ ⟨262144, 0, 0⟩), .work,
    .call (.recv ⟨65536, 250, 32⟩ ⟨262144, 0, 0⟩), .work]

theorem confined_of_reach_stray : ∃ s,
    Reach (Connected.step twoBuffers true) anyStep
      (.start twoBuffers ⟨fun _ _ => 1, fun _ _ => 2, false, fun n => n == 0, .new 1024⟩ 3) s ∧
    s.accepted = [.send ⟨65536, 16, 8⟩ ⟨262144, 0, 0⟩, .recv ⟨65536, 250, 32⟩ ⟨262144, 0, 0⟩] ∧
    ∃ cs, Confined twoBuffers
      ⟨fun _ _ => 1, fun _ _ => 2, false, fun n => n == 0, .new 1024⟩ s cs := by
  obtain ⟨s, hr, hcalls⟩ : ∃ s, Reach (Connected.step twoBuffers true) anyStep
      (.start twoBuffers ⟨fun _ _ => 1, fun _ _ => 2, false, fun n => n == 0, .new 1024⟩ 3) s ∧
      s.accepted = [.send ⟨65536, 16, 8⟩ ⟨262144, 0, 0⟩, .recv ⟨65536, 250, 32⟩ ⟨262144, 0, 0⟩] :=
    exists_reach_of_execWithin strayCalls ⟨_, rfl, rfl⟩
  exact ⟨s, hr, hcalls, confined_of_reach hr (by rw [hcalls]; decide)⟩

/-- **Nothing else gets out.** Two clients for which the same calls have been queued, at whatever
times: if their memories agree on the registered buffers at the start, they agree on them at the
end, whatever lies around them. -/
theorem same_of_reach {wraps' : Bool}
    (hr : Reach (Connected.step st wraps) anyStep (.start st i n) s)
    (hr' : Reach (Connected.step st wraps') anyStep (.start st i' n') s')
    (hn : s.accepted.length < n) (hn' : s'.accepted.length < n')
    (hcalls : s.accepted = s'.accepted)
    (h : st.Same ⟨i.client .gpu, i.server .gpu⟩ ⟨i'.client .gpu, i'.server .gpu⟩) :
    st.Same (s.left st wraps).state.gpu (s'.left st wraps').state.gpu := by
  rw [gpu_left hr hn, gpu_left hr' hn', hcalls]
  exact applyAll_same (fun _ hc => valid_of_mem_effective hc) h

/-- One call, with two memories of the server that differ outside the buffers. -/
theorem same_of_reach_outside : ∃ s s',
    Reach (Connected.step twoBuffers true) anyStep
      (.start twoBuffers ⟨fun _ _ => 1, fun _ _ => 2, false, fun n => n == 0, .new 1024⟩ 2) s ∧
    Reach (Connected.step twoBuffers false) anyStep
      (.start twoBuffers ⟨fun _ _ => 1, fun _ a => if a < 65536 then 3 else 2, false,
        fun _ => false, .new 1024⟩ 2) s' ∧
    s.accepted = [.recv ⟨65536, 16, 8⟩ ⟨262144, 0, 0⟩] ∧
    twoBuffers.Same (s.left twoBuffers true).state.gpu (s'.left twoBuffers false).state.gpu := by
  obtain ⟨s, hr, hcalls⟩ : ∃ s, Reach (Connected.step twoBuffers true) anyStep
      (.start twoBuffers ⟨fun _ _ => 1, fun _ _ => 2, false, fun n => n == 0, .new 1024⟩ 2) s ∧
      s.accepted = [.recv ⟨65536, 16, 8⟩ ⟨262144, 0, 0⟩] :=
    exists_reach_of_execWithin [.call (.recv ⟨65536, 16, 8⟩ ⟨262144, 0, 0⟩), .work] ⟨_, rfl, rfl⟩
  obtain ⟨s', hr', hcalls'⟩ : ∃ s, Reach (Connected.step twoBuffers false) anyStep
      (.start twoBuffers ⟨fun _ _ => 1, fun _ a => if a < 65536 then 3 else 2, false,
        fun _ => false, .new 1024⟩ 2) s ∧ s.accepted = [.recv ⟨65536, 16, 8⟩ ⟨262144, 0, 0⟩] :=
    exists_reach_of_execWithin [.call (.recv ⟨65536, 16, 8⟩ ⟨262144, 0, 0⟩)] ⟨_, rfl, rfl⟩
  refine ⟨s, s', hr, hr', hcalls, same_of_reach hr hr' (by rw [hcalls]; decide)
    (by rw [hcalls']; decide) (hcalls.trans hcalls'.symm) ⟨fun _ _ => rfl, fun a ha => ?_⟩⟩
  obtain ⟨mr, hmr, hle, -⟩ := ha
  have hbase : 65536 ≤ mr.addr.toNat := by
    simp only [twoBuffers, List.mem_cons, List.not_mem_nil, or_false] at hmr
    rcases hmr with rfl | rfl <;> decide
  exact (if_neg (by omega)).symm

end Connected

end Fabric

end RdmaTransport
