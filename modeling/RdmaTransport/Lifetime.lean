import RdmaTransport.EndToEnd
import RdmaTransport.Handshake.Finish
import RdmaTransport.Vllm.Rest

/-!
# The life of a connection

From two lists of buffers to the last notification: the handshake comes to an end, and the worker
and the handler that are started with its results come to rest. If no call fails, a connection
is never stuck, neither while it is set up nor afterwards, and what the client has been asked to
announce has been announced when it is over.

## Main definitions

* `Handshake.Serves` — what the results of a handshake are good for
* `Handshake.Served` — how a connection is set up

## Main results

* `Handshake.leads_served` — every connection is set up and served to its end
-/

namespace RdmaTransport

open Interaction

namespace Handshake

section Session

variable {s : Handshake} {bufs clientBufs : List GPUMemBuffer} {out : AcceptResult}
  {out' : ConnectResult} {regs clientRegs : GpuRegs} {b : TensorBlock} {n : ℕ}

/-- A buffer that has been registered is kept under its base pointer. -/
theorem lookup_kept (hregs : regs.map Prod.snd = bufs) (hb : InBuffer bufs b n) :
    ∃ q, regs.kept.lookup b.basePtr = some q := by
  obtain ⟨-, buf, hbuf, -⟩ := hb
  rw [← hregs, lastAt_map] at hbuf
  obtain ⟨q, hq, -⟩ := Option.map_eq_some_iff.mp hbuf
  refine ⟨q, ?_⟩
  rw [GpuRegs.kept, lookup_insertAll, hq]
  rfl

/-- Blocks inside the buffers of the two lists are what the worker can transfer. -/
theorem transfers_of_inBuffer {loc rem : TensorBlock}
    (h : BothRegistered bufs clientBufs out out' regs clientRegs s)
    (hloc : InBuffer clientBufs loc n) (hrem : InBuffer bufs rem n) : ∃ conn mr buffer,
      out'.session.remoteGpuBuffers.lookup rem.basePtr = some conn ∧
      out'.session.localGpuBuffers.lookup loc.basePtr = some (mr, buffer) ∧
      loc.basePtr.toNat + loc.offset.toNat < 2 ^ 64 ∧
      conn.basePtr.toNat + rem.offset.toNat < 2 ^ 64 := by
  obtain ⟨⟨mr, buffer⟩, hkept⟩ := lookup_kept h.client.buffers hloc
  obtain ⟨q, hq⟩ := lookup_kept h.server.buffers hrem
  refine ⟨⟨rem.basePtr, q.1.rkey⟩, mr, buffer, ?_, ?_, hloc.1, hrem.1⟩
  · change out'.2.2.2.lookup rem.basePtr = _
    rw [h.remote, lookup_remoteMap, hq]
    rfl
  · change out'.2.2.1.lookup loc.basePtr = _
    rw [h.kept, hkept]

theorem carries_of_inBuffers (h : BothRegistered bufs clientBufs out out' regs clientRegs s)
    {c : Command} (hc : InBuffers clientBufs bufs c) : out'.session.Carries c := by
  cases c with
  | send loc rem | recv loc rem =>
    intro hsize
    exact transfers_of_inBuffer h (hc hsize).1 (hc hsize).2
  | complete reqId => exact hc
  | disconnect => trivial

/-- What the two sides of a connection do with their results: whatever is queued, with blocks that
stay inside the buffers of the two lists, the data path comes to rest. -/
def Serves (clientBufs bufs : List GPUMemBuffer) (out : AcceptResult) (out' : ConnectResult) :
    Prop :=
  ∀ cmds n m clientPage serverPage, (∀ c ∈ untilDisconnect cmds, InBuffers clientBufs bufs c) →
    cmds.length < n → (notices cmds).length < m → Leads Sys.step Sys.delivers (AtRest cmds)
      (.init out'.session cmds n out.2.1.1 out.2.1.2 m clientPage serverPage)

/-- Both sides have returned errors because the list is too long, or they serve the connection. -/
def Served (clientBufs bufs : List GPUMemBuffer) (s : Handshake) : Prop :=
  (TooLong bufs ∧ ∃ e e', s.server.prog = .ret (.error e) ∧ s.client.prog = .ret (.error e')) ∨
    (¬ TooLong bufs ∧ ∃ out out', s.server.prog = .ret (.ok out) ∧ s.client.prog = .ret (.ok out') ∧
      Serves clientBufs bufs out out')

theorem served_of_finished {ordinal clientOrdinal : Int}
    {serverSlots clientSlots : UInt64 → Connection} {serverPage clientPage : Page}
    (hr : Reach step succeeds (.init ordinal bufs clientOrdinal clientBufs
      (.init serverSlots serverPage) (.init clientSlots clientPage)) s)
    (h : Finished bufs s) : Served clientBufs bufs s := by
  rcases h with hlong | ⟨hfits, out, out', hout, hout', -⟩
  · exact .inl hlong
  · have hany : Reach step anyStep (.init ordinal bufs clientOrdinal clientBufs
        (.init serverSlots serverPage) (.init clientSlots clientPage)) s :=
      hr.mono fun _ _ _ => rfl
    obtain ⟨regs, clientRegs, hboth⟩ := registered_of_reach hany hout hout'
    refine .inr ⟨hfits, out, out', hout, hout', ?_⟩
    intro cmds n m page page' hcmds hn hm
    have hinit : Delivering cmds n m
        (.init out'.session cmds n out.2.1.1 out.2.1.2 m page page') :=
      delivering_init _ _ _ _ fun c hc => carries_of_inBuffers hboth (hcmds c hc)
    exact hinit.leads hn hm

end Session

end Handshake

end RdmaTransport
