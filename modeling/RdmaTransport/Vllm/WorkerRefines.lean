import RdmaTransport.Vllm.Worker

/-!
# The worker refines sequential copying

With distinct base pointers on each side, a transfer that names registered base pointers and stays
inside the buffers there finds exactly those regions: both maps have one entry for each buffer, and
each key belongs to one region. So every such command is valid, and the worker applies the queue up
to its first disconnect.

## Main results

* `valid_of_names` — such a command is valid
* `drained_refines` — the GPU memories after the queue
-/

namespace RdmaTransport

open Interaction

namespace Fabric

variable {st : Setup}

/-- A transfer names a registered buffer on each side, and its range, of the size of the local
block, lies in the buffer and does not exceed 64 bits; a notification fits the page. -/
def Setup.Names (st : Setup) : Command → Prop
  | .send loc rem | .recv loc rem => loc.size > 0 →
      (∃ q ∈ st.clientGpu, q.2.basePtr = loc.basePtr ∧
        loc.offset.toNat + loc.size.toNat ≤ q.2.size ∧ loc.start + loc.size.toNat ≤ 2 ^ 64) ∧
      ∃ mr ∈ st.serverGpu, mr.addr = rem.basePtr ∧
        rem.offset.toNat + loc.size.toNat ≤ mr.length ∧ rem.start + loc.size.toNat ≤ 2 ^ 64
  | .complete reqId => (⟨0, some reqId⟩ : Notification).serializedSize ≤ cpuBufferBaseSize
  | .disconnect => True

theorem fits_of_names {mr : IbvMr} {b : TensorBlock} {size : UInt32} (hsize : size > 0)
    (hin : b.offset.toNat + size.toNat ≤ mr.length) (h64 : b.start + size.toNat ≤ 2 ^ 64) :
    Fits mr b size.toNat := by
  have hpos : 0 < size.toNat := UInt32.lt_iff_toNat_lt.mp hsize
  refine ⟨?_, hin⟩
  rw [TensorBlock.start] at h64
  omega

/-- With distinct base pointers, naming a buffer is finding it. -/
theorem valid_of_names (hlocal : (st.clientGpu.map fun q => q.2.basePtr).Nodup)
    (hremote : (st.serverGpu.map IbvMr.addr).Nodup) {c : Command} (hc : st.Names c) :
    st.Valid c := by
  have htransfer (loc rem : TensorBlock) (h : st.Names (.send loc rem)) :
      st.Valid (.send loc rem) := by
    intro hsize
    obtain ⟨⟨q, hq, hbase, hin, h64⟩, mr, hmr, haddr, hrin, hr64⟩ := h hsize
    refine ⟨⟨q, ?_, fits_of_names hsize ?_ h64⟩, mr, ?_, fits_of_names hsize hrin hr64⟩
    · rw [← hbase]
      exact lastAt_of_nodup hlocal hq
    · rwa [(st.registered q hq).2]
    · rw [← haddr]
      exact lastAt_of_nodup hremote hmr
  cases c with
  | send loc rem => exact htransfer loc rem hc
  | recv loc rem => exact htransfer loc rem hc
  | complete reqId => exact hc
  | disconnect => trivial

theorem effective_of_valid {cs : List Command} (h : ∀ c ∈ cs, st.Valid c) :
    st.effective cs = untilDisconnect cs := by
  induction cs with
  | nil => rfl
  | cons c cs ih =>
    rw [Setup.effective, untilDisconnect, if_pos (h c List.mem_cons_self),
      ih fun d hd => h d (List.mem_cons_of_mem c hd)]

/-- **Refinement.** On a queue of commands that all name what is registered, the worker drains the
queue without a panic, and the GPU memories of both sides are then those obtained by applying the
commands one after the other, up to the first disconnect; every byte no command copies to is as it
was. It makes no difference when the requests take effect. -/
theorem drained_refines (st : Setup) (wraps : Bool) (i : Start)
    (hlocal : (st.clientGpu.map fun q => q.2.basePtr).Nodup)
    (hremote : (st.serverGpu.map IbvMr.addr).Nodup) {cs : List Command}
    (hcs : ∀ c ∈ cs, st.Names c) :
    (drained st wraps i cs).state.gpu =
        applyAll (untilDisconnect cs) ⟨i.client .gpu, i.server .gpu⟩ ∧
      ∃ w', drained st wraps i cs = .done (some ()) w' ∨
        drained st wraps i cs = .stuck .recvCmd w' := by
  have hvalid : ∀ c ∈ cs, st.Valid c := fun c hc => valid_of_names hlocal hremote (hcs c hc)
  obtain ⟨hgpu, -, hends⟩ := drained_spec st wraps i cs
  rw [effective_of_valid hvalid] at hgpu
  exact ⟨hgpu, hends.drained hvalid⟩

/-- Two buffers on each side. -/
def twoBuffers : Setup where
  clientCpu := ⟨4096, cpuBufferBaseSize, 1, 1⟩
  clientGpu := [(⟨65536, 256, 2, 2⟩, ⟨65536, 256⟩), (⟨131072, 128, 3, 3⟩, ⟨131072, 128⟩)]
  serverCpu := ⟨8192, cpuBufferBaseSize, 11, 11⟩
  serverGpu := [⟨65536, 256, 12, 12⟩, ⟨262144, 256, 13, 13⟩]
  clientCpu_length := rfl
  serverCpu_length := rfl
  registered := by simp [RegisteredFor]
  lkeys := by decide
  rkeys := by decide

theorem drained_refines_twoBuffers :
    (drained twoBuffers false ⟨fun _ _ => 1, fun _ _ => 2, false, fun n => n == 0, .new 1024⟩
        [.send ⟨65536, 16, 8⟩ ⟨262144, 0, 0⟩, .complete [7], .disconnect]).state.gpu =
      applyAll (untilDisconnect
        [.send ⟨65536, 16, 8⟩ ⟨262144, 0, 0⟩, .complete [7], .disconnect])
        ⟨fun _ => 1, fun _ => 2⟩ ∧
    ∃ w', drained twoBuffers false ⟨fun _ _ => 1, fun _ _ => 2, false, fun n => n == 0, .new 1024⟩
        [.send ⟨65536, 16, 8⟩ ⟨262144, 0, 0⟩, .complete [7], .disconnect] = .done (some ()) w' ∨
      drained twoBuffers false ⟨fun _ _ => 1, fun _ _ => 2, false, fun n => n == 0, .new 1024⟩
        [.send ⟨65536, 16, 8⟩ ⟨262144, 0, 0⟩, .complete [7], .disconnect] = .stuck .recvCmd w' := by
  refine drained_refines twoBuffers false _ (by decide) (by decide) ?_
  intro c hc
  simp only [List.mem_cons, List.not_mem_nil, or_false] at hc
  rcases hc with rfl | rfl | rfl
  · intro _
    exact ⟨⟨_, List.mem_cons_self, rfl, by decide, by decide⟩,
      _, List.mem_cons_of_mem _ List.mem_cons_self, rfl, by decide, by decide⟩
  · change (⟨0, some [7]⟩ : Notification).serializedSize ≤ _
    rw [Notification.serializedSize_some]
    decide
  · trivial

end Fabric

end RdmaTransport
