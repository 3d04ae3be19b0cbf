import RdmaTransport.Internal.InsertAll
import RdmaTransport.Internal.Memory
import RdmaTransport.Registration
import RdmaTransport.Vllm.Sequential

/-!
# The worker on a queue pair that checks its keys

The environment of one connected client: both sides' memories, the regions registered for their
keys, and a queue pair that executes work requests. A request whose local or remote range is not
inside the region of its key completes with an error and puts the queue pair into the error state,
in which every request completes with a flush error. Any other request takes full effect before its
completion can be polled, either right when it is posted or as late as that; `World.early` decides
which, request by request.

A `Setup` is what is registered on the two sides. Its keys are distinct, as the keys of registered
regions are, and the fields say so: a region found for a key is *the* region of that key.

## Main definitions

* `Setup`, `Setup.session` — what is registered, and the maps `connect` makes of it
* `Net`, `Setup.perform` — the memories and one work request
* `World`, `Setup.answer` — the whole environment

## Main results

* `interp_postAndPoll` — one operation, whenever its request takes effect
* `interp_transferArm`, `interp_completeArm`, `interp_disconnectArm` — the arms
-/

namespace RdmaTransport

open Interaction

namespace Fabric

/-! ### Memory and regions -/

/-- The memories of one side. -/
inductive Space
  /-- The page behind its `MemBuffer`. -/
  | page
  /-- Its GPU memory. -/
  | gpu
  deriving DecidableEq, Repr

/-- The bytes of one side, by address. -/
abbrev Memory := Space → ℕ → UInt8

/-- Copy a range of one side to a range of the other. -/
def Memory.copy (dst src : Memory) (into out : Space) (d s n : ℕ) : Memory :=
  Function.update dst into (copyRange (dst into) (src out) d s n)

/-- The regions of one side. -/
structure Regions where
  /-- Over its page. -/
  cpu : IbvMr
  /-- Over its GPU buffers. -/
  gpu : List IbvMr

namespace Regions

variable {key : IbvMr → UInt32} {rs : Regions} {mr : IbvMr} {k : UInt32} {addr n : ℕ}

/-- The region of a key. -/
def find (key : IbvMr → UInt32) (rs : Regions) (k : UInt32) : Option (Space × IbvMr) :=
  if key rs.cpu = k then some (.page, rs.cpu)
  else (rs.gpu.find? fun mr => key mr = k).map fun mr => (.gpu, mr)

/-- Where a range lies, if it is inside the region of its key. -/
def resolve (key : IbvMr → UInt32) (rs : Regions) (k : UInt32) (addr n : ℕ) : Option Space :=
  match rs.find key k with
  | some (space, mr) =>
    if mr.addr.toNat ≤ addr ∧ addr + n ≤ mr.addr.toNat + mr.length then some space else none
  | none => none

/-- Every region has a key of its own. -/
def KeysDistinct (key : IbvMr → UInt32) (rs : Regions) : Prop := ((rs.cpu :: rs.gpu).map key).Nodup

instance : Decidable (rs.KeysDistinct key) := inferInstanceAs (Decidable (List.Nodup _))

theorem resolve_cpu (h : rs.cpu.addr.toNat ≤ addr ∧ addr + n ≤ rs.cpu.addr.toNat + rs.cpu.length) :
    rs.resolve key (key rs.cpu) addr n = some .page := by
  rw [resolve, find, if_pos rfl]
  exact if_pos h

theorem find_gpu (hkeys : rs.KeysDistinct key) (hmr : mr ∈ rs.gpu) :
    rs.find key (key mr) = some (.gpu, mr) := by
  rw [KeysDistinct, List.map_cons, List.nodup_cons] at hkeys
  have hcpu : key rs.cpu ≠ key mr := fun h => hkeys.1 (h ▸ List.mem_map_of_mem hmr)
  have hgpu : rs.gpu.find? (fun mr' => key mr' = key mr) = some mr := by
    cases h : rs.gpu.find? fun mr' => key mr' = key mr with
    | none => exact absurd (by simp) (List.find?_eq_none.mp h mr hmr)
    | some mr' =>
      have hkey : key mr' = key mr := by simpa using List.find?_some h
      exact congrArg some
        (List.inj_on_of_nodup_map hkeys.2 (List.mem_of_find?_eq_some h) hmr hkey)
  rw [find, if_neg hcpu, hgpu]
  rfl

theorem resolve_gpu (hkeys : rs.KeysDistinct key) (hmr : mr ∈ rs.gpu) :
    rs.resolve key (key mr) addr n =
      if mr.addr.toNat ≤ addr ∧ addr + n ≤ mr.addr.toNat + mr.length then some .gpu else none := by
  rw [resolve, find_gpu hkeys hmr]

end Regions

/-! ### What is registered -/

/-- What the two sides of a connection have registered. -/
structure Setup where
  /-- The region of the client's page. -/
  clientCpu : IbvMr
  /-- The client's GPU buffers and their regions, in the order of registration. -/
  clientGpu : List (IbvMr × GPUMemBuffer)
  /-- The region of the server's page. -/
  serverCpu : IbvMr
  /-- The regions of the server's GPU buffers, in the order of registration. -/
  serverGpu : List IbvMr
  /-- A page has the size of a `MemBuffer`. -/
  clientCpu_length : clientCpu.length = cpuBufferBaseSize
  /-- On either side. -/
  serverCpu_length : serverCpu.length = cpuBufferBaseSize
  /-- Every GPU buffer of the client is registered whole. -/
  registered : ∀ q ∈ clientGpu, RegisteredFor q
  /-- The client's keys are distinct. -/
  lkeys : (Regions.mk clientCpu (clientGpu.map Prod.fst)).KeysDistinct IbvMr.lkey
  /-- The server's keys are distinct. -/
  rkeys : (Regions.mk serverCpu serverGpu).KeysDistinct IbvMr.rkey

namespace Setup

variable (st : Setup)

/-- The client's regions. -/
def clientRegions : Regions := ⟨st.clientCpu, st.clientGpu.map Prod.fst⟩

/-- The server's regions. -/
def serverRegions : Regions := ⟨st.serverCpu, st.serverGpu⟩

/-- What the server offers for a region. -/
def toConnection (mr : IbvMr) : Connection := ⟨mr.addr, mr.rkey⟩

/-- What `connect` hands to the worker. -/
def session : Session where
  cpuConn := toConnection st.serverCpu
  cpuMr := st.clientCpu
  cpuBuffer := ⟨st.clientCpu.addr⟩
  localGpuBuffers := insertAll (fun q => q.2.basePtr) id st.clientGpu ∅
  remoteGpuBuffers := Client.remoteMap (st.serverGpu.map toConnection)

end Setup

/-! ### Work requests -/

/-- `IBV_WC_LOC_PROT_ERR`. -/
def ibvWcLocProtErr : UInt32 := 4

/-- `IBV_WC_WR_FLUSH_ERR`. -/
def ibvWcWrFlushErr : UInt32 := 5

/-- `IBV_WC_REM_ACCESS_ERR`. -/
def ibvWcRemAccessErr : UInt32 := 10

/-- The memories and the queue pair between them. -/
structure Net where
  /-- The client's memory. -/
  client : Memory
  /-- The server's memory. -/
  server : Memory
  /-- Whether the queue pair is in the error state. -/
  qpError : Bool
  /-- What requests have brought about, each with the number of the command that posted it. -/
  effects : List (ℕ × Effect)

/-- The client writes its page: what fits of the bytes, from the start. -/
def Net.writePage (net : Net) (buf : MemBuffer) (bytes : List UInt8) : Net :=
  { net with
    client := Function.update net.client .page (copyRange (net.client .page)
      (fun i => bytes.getD i 0) buf.ptr.toNat 0 (min bytes.length cpuBufferBaseSize)) }

/-- What `handle_notification` will decode after a write with this immediate. -/
def notice (page : ℕ → UInt8) (addr : ℕ) (immData : UInt32) : Option Notification :=
  if (ntohl immData).toNat ≤ cpuBufferBaseSize then
    (Notification.deserialize (readBytes page addr (ntohl immData).toNat)).toOption
  else none

namespace Setup

variable (st : Setup)

/-- A request whose ranges have been found to lie in `loc` and `rem`. -/
def transfer (cmd : ℕ) (net : Net) (wr : IbvSendWr) (loc rem : Space) : Net :=
  let la := wr.sge.addr.toNat
  let ra := wr.remoteAddr.toNat
  let n := wr.sge.length.toNat
  match wr.opcode with
  | .rdmaWrite => { net with
      server := Memory.copy net.server net.client rem loc ra la n
      effects := net.effects ++ [(cmd, .pushed la ra n)] }
  | .rdmaRead => { net with
      client := Memory.copy net.client net.server loc rem la ra n
      effects := net.effects ++ [(cmd, .pulled la ra n)] }
  | .rdmaWriteWithImm => { net with
      server := Memory.copy net.server net.client rem loc ra la n
      effects := net.effects ++ [(cmd, .notified
        (notice (Memory.copy net.server net.client rem loc ra la n .page) st.serverCpu.addr.toNat
          wr.immData))] }
  | .send => net

/-- A transfer leaves the queue pair working. -/
theorem qpError_transfer (cmd : ℕ) (net : Net) (wr : IbvSendWr) (loc rem : Space) :
    (st.transfer cmd net wr loc rem).qpError = net.qpError := by
  unfold transfer
  split <;> rfl

/-- Execute a request: the status of its completion, and what it leaves behind. -/
def perform (cmd : ℕ) (net : Net) (wr : IbvSendWr) : UInt32 × Net :=
  if net.qpError then (ibvWcWrFlushErr, net)
  else
    match st.clientRegions.resolve IbvMr.lkey wr.sge.lkey wr.sge.addr.toNat wr.sge.length.toNat,
      st.serverRegions.resolve IbvMr.rkey wr.rkey wr.remoteAddr.toNat wr.sge.length.toNat with
    | some loc, some rem => (ibvWcSuccess, st.transfer cmd net wr loc rem)
    | none, _ => (ibvWcLocProtErr, { net with qpError := true })
    | some _, none => (ibvWcRemAccessErr, { net with qpError := true })

end Setup

/-! ### The environment -/

/-- The environment of the worker. -/
structure World where
  /-- The memories and the queue pair. -/
  net : Net
  /-- The commands still in the channel. -/
  commands : List Command
  /-- Whether the channel is closed, so that the worker ends after the last command. -/
  closed : Bool
  /-- How many commands have been taken. -/
  taken : ℕ
  /-- Posted and not executed. -/
  sq : List IbvSendWr
  /-- Executed and not polled. -/
  cq : List IbvWc
  /-- How many requests have been posted. -/
  posts : ℕ
  /-- Whether a request, by its number, is executed right when it is posted. -/
  early : ℕ → Bool
  /-- The client's table. -/
  reqs : CompletionReqs

namespace World

/-- Nothing is posted. -/
def Idle (w : World) : Prop := w.sq = [] ∧ w.cq = []

/-- The channel, as it was. -/
def SameQueue (w w' : World) : Prop :=
  w'.commands = w.commands ∧ w'.closed = w.closed ∧ w'.taken = w.taken

end World

namespace Setup

variable (st : Setup)

/-- Execute the oldest requests, in their order. -/
def drain (w : World) : World :=
  w.sq.foldl (fun w wr =>
    { w with
      net := (st.perform w.taken w.net wr).2
      cq := w.cq ++ [⟨(st.perform w.taken w.net wr).1, 0, 0⟩] }) { w with sq := [] }

/-- The behaviour of the environment. `wraps` is a build without overflow checks. -/
def answer (wraps : Bool) : (op : Op) → World → Option (op.Ans × World)
  | .ibvPostSend wr, w =>
    let w' := { w with sq := w.sq ++ [wr], posts := w.posts + 1 }
    some (.ret 0 0, if w.early w.posts then st.drain w' else w')
  | .ibvPollCq .send, w =>
    match (st.drain w).cq with
    | [] => none
    | wc :: rest => some (.entry wc, { st.drain w with cq := rest })
  | .rdmaDisconnect, w => some (.ret 0 0, w)
  | .writePage buf bytes, w => some ((), { w with net := w.net.writePage buf bytes })
  | .recvCmd, w =>
    match w.commands with
    | cmd :: rest => some (some cmd, { w with commands := rest, taken := w.taken + 1 })
    | [] => if w.closed then some (none, w) else none
  | .lockReqs, w => some (w.reqs, w)
  | .putReqs reqs, w => some ((), { w with reqs := reqs })
  | .unlockReqs, w => some ((), w)
  | .observe _, w => some ((), w)
  | .overflow, w => if wraps then some ((), w) else none
  | _, _ => none

/-- The worker has taken a turn it does not come back from: it has panicked. -/
def Aborted : Outcome iface World (Option Unit) → Prop
  | .stuck (.panic _) _ => True
  | .stuck .overflow _ => True
  | _ => False

end Setup

/-! ### One request -/

variable {st : Setup} {wraps : Bool} {w w' : World} {net : Net} {cmd : ℕ} {wr : IbvSendWr}

/-- The queue pair fails a request: it is in the error state already, or a range is outside. -/
def Setup.Refuses (st : Setup) (net : Net) (wr : IbvSendWr) : Prop :=
  net.qpError = true ∨
    st.clientRegions.resolve IbvMr.lkey wr.sge.lkey wr.sge.addr.toNat wr.sge.length.toNat = none ∨
    st.serverRegions.resolve IbvMr.rkey wr.rkey wr.remoteAddr.toNat wr.sge.length.toNat = none

theorem perform_of_refuses (cmd : ℕ) (h : st.Refuses net wr) :
    ∃ status, status ≠ ibvWcSuccess ∧
      st.perform cmd net wr = (status, { net with qpError := true }) := by
  obtain ⟨client, server, qpError, effects⟩ := net
  cases qpError with
  | true => exact ⟨ibvWcWrFlushErr, by decide, rfl⟩
  | false =>
    simp only [Setup.perform, Bool.false_eq_true, if_false]
    rcases h with h | h | h
    · cases h
    · exact ⟨ibvWcLocProtErr, by decide, by rw [h]⟩
    · cases hloc : st.clientRegions.resolve IbvMr.lkey wr.sge.lkey wr.sge.addr.toNat
        wr.sge.length.toNat with
      | none => exact ⟨ibvWcLocProtErr, by decide, rfl⟩
      | some loc => exact ⟨ibvWcRemAccessErr, by decide, by rw [h]⟩

theorem perform_of_resolve (hq : net.qpError = false) {loc rem : Space}
    (hloc : st.clientRegions.resolve IbvMr.lkey wr.sge.lkey wr.sge.addr.toNat wr.sge.length.toNat =
      some loc)
    (hrem : st.serverRegions.resolve IbvMr.rkey wr.rkey wr.remoteAddr.toNat wr.sge.length.toNat =
      some rem) :
    st.perform cmd net wr = (ibvWcSuccess, st.transfer cmd net wr loc rem) := by
  simp only [Setup.perform, hq, hloc, hrem, Bool.false_eq_true, if_false]

/-- **One operation.** Whether its request takes effect early or late, the operation ends with the
status of the request, and nothing is left on the queues. -/
theorem interp_postAndPoll (hw : w.Idle) (wr : IbvSendWr) (op what : String) :
    Prog.interp (st.answer wraps) (postAndPoll wr op what).run w =
      .done ((compResult op what (.entry ⟨(st.perform w.taken w.net wr).1, 0, 0⟩)).map fun _ => ())
        { w with net := (st.perform w.taken w.net wr).2, posts := w.posts + 1 } := by
  obtain ⟨net, commands, closed, taken, sq, cq, posts, early, reqs⟩ := w
  obtain ⟨hsq, hcq⟩ := hw
  cases hsq
  cases hcq
  rw [run_postAndPoll]
  cases hearly : early posts with
  | true => simp only [Prog.interp, Setup.answer, hearly, if_true]; rfl
  | false => simp only [Prog.interp, Setup.answer, hearly, Bool.false_eq_true, if_false]; rfl

/-- An operation whose request succeeds. -/
theorem interp_postAndPoll_of_resolve (loc rem : Space) (hw : w.Idle) (hq : w.net.qpError = false)
    (hloc : st.clientRegions.resolve IbvMr.lkey wr.sge.lkey wr.sge.addr.toNat wr.sge.length.toNat =
      some loc)
    (hrem : st.serverRegions.resolve IbvMr.rkey wr.rkey wr.remoteAddr.toNat wr.sge.length.toNat =
      some rem) (op what : String) :
    Prog.interp (st.answer wraps) (postAndPoll wr op what).run w =
      .done (.ok ())
        { w with net := st.transfer w.taken w.net wr loc rem, posts := w.posts + 1 } := by
  rw [interp_postAndPoll hw, perform_of_resolve hq hloc hrem, compResult_entry_of_success rfl]
  rfl

/-- An operation whose request fails. -/
theorem interp_postAndPoll_of_refuses (st : Setup) (wraps : Bool) {w : World} (wr : IbvSendWr)
    (hw : w.Idle) (h : st.Refuses w.net wr) (op what : String) :
    ∃ e, Prog.interp (st.answer wraps) (postAndPoll wr op what).run w =
      .done (.error e) { w with net := { w.net with qpError := true }, posts := w.posts + 1 } := by
  obtain ⟨status, hstatus, hperform⟩ := perform_of_refuses w.taken h
  obtain ⟨e, he⟩ : ∃ e, compResult op what (.entry ⟨status, 0, 0⟩) = .error e :=
    compResult_entry_of_failed op what hstatus
  exact ⟨e, by rw [interp_postAndPoll hw, hperform, he]; rfl⟩

/-! ### Valid commands -/

/-- `n` bytes from the start of the block lie in the region, and the start is no wrapped sum. -/
def Fits (mr : IbvMr) (b : TensorBlock) (n : ℕ) : Prop :=
  b.basePtr.toNat + b.offset.toNat < 2 ^ 64 ∧ b.offset.toNat + n ≤ mr.length

instance (mr : IbvMr) (b : TensorBlock) (n : ℕ) : Decidable (Fits mr b n) :=
  inferInstanceAs (Decidable (_ ∧ _))

/-- The client's region at a base pointer: the last one registered there. -/
def Setup.localRegion (st : Setup) (base : UInt64) : Option (IbvMr × GPUMemBuffer) :=
  lastAt (fun q => q.2.basePtr) st.clientGpu base

/-- The server's region at a base pointer: the last one registered there. -/
def Setup.remoteRegion (st : Setup) (base : UInt64) : Option IbvMr :=
  lastAt IbvMr.addr st.serverGpu base

/-- A transfer names registered base pointers and stays inside the regions there, on both sides
by the size of the local block; a notification fits the page. -/
def Setup.Valid (st : Setup) : Command → Prop
  | .send loc rem | .recv loc rem => loc.size > 0 →
      (∃ q ∈ st.localRegion loc.basePtr, Fits q.1 loc loc.size.toNat) ∧
        ∃ mr ∈ st.remoteRegion rem.basePtr, Fits mr rem loc.size.toNat
  | .complete reqId => (⟨0, some reqId⟩ : Notification).serializedSize ≤ cpuBufferBaseSize
  | .disconnect => True

instance (st : Setup) : DecidablePred st.Valid
  | .send loc rem => inferInstanceAs (Decidable (loc.size > 0 →
      (∃ q ∈ st.localRegion loc.basePtr, Fits q.1 loc loc.size.toNat) ∧
        ∃ mr ∈ st.remoteRegion rem.basePtr, Fits mr rem loc.size.toNat))
  | .recv loc rem => inferInstanceAs (Decidable (loc.size > 0 →
      (∃ q ∈ st.localRegion loc.basePtr, Fits q.1 loc loc.size.toNat) ∧
        ∃ mr ∈ st.remoteRegion rem.basePtr, Fits mr rem loc.size.toNat))
  | .complete _ => inferInstanceAs (Decidable (_ ≤ _))
  | .disconnect => inferInstanceAs (Decidable True)

theorem lookup_local (st : Setup) (base : UInt64) :
    st.session.localGpuBuffers.lookup base = st.localRegion base := by
  rw [Setup.session, lookup_insertAll, Setup.localRegion]
  cases lastAt (fun q => q.2.basePtr) st.clientGpu base <;> rfl

theorem lookup_remote (st : Setup) (base : UInt64) :
    st.session.remoteGpuBuffers.lookup base = (st.remoteRegion base).map Setup.toConnection := by
  have hmap : st.session.remoteGpuBuffers =
      insertAll Connection.basePtr id (st.serverGpu.map Setup.toConnection) ∅ := rfl
  rw [hmap, lookup_insertAll, lastAt_map, Setup.remoteRegion]
  cases h : lastAt IbvMr.addr st.serverGpu base with
  | none =>
    rw [show lastAt (fun x => (Setup.toConnection x).basePtr) st.serverGpu base = none from h]
    rfl
  | some mr =>
    rw [show lastAt (fun x => (Setup.toConnection x).basePtr) st.serverGpu base = some mr from h]
    rfl

section Region

variable {base : UInt64} {q : IbvMr × GPUMemBuffer} {mr : IbvMr}

theorem mem_of_localRegion (h : st.localRegion base = some q) : q ∈ st.clientGpu := mem_of_lastAt h

theorem mem_of_remoteRegion (h : st.remoteRegion base = some mr) : mr ∈ st.serverGpu :=
  mem_of_lastAt h

/-- A region is found at the base pointer it was registered at. -/
theorem addr_of_localRegion (h : st.localRegion base = some q) : q.1.addr = base := by
  have hlast : lastAt (fun q : IbvMr × GPUMemBuffer => q.2.basePtr) st.clientGpu base = some q := h
  have hbase := key_of_lastAt hlast
  exact (st.registered q (mem_of_localRegion h)).1.trans hbase

theorem addr_of_remoteRegion (h : st.remoteRegion base = some mr) : mr.addr = base :=
  key_of_lastAt h

end Region

theorem resolve_local {base : UInt64} {q : IbvMr × GPUMemBuffer} (hq : st.localRegion base = some q)
    (addr n : ℕ) : st.clientRegions.resolve IbvMr.lkey q.1.lkey addr n =
      if base.toNat ≤ addr ∧ addr + n ≤ base.toNat + q.1.length then some .gpu else none := by
  have hmem := mem_of_localRegion hq
  rw [st.clientRegions.resolve_gpu st.lkeys (List.mem_map_of_mem hmem), addr_of_localRegion hq]

theorem resolve_remote {base : UInt64} {mr : IbvMr} (hmr : st.remoteRegion base = some mr)
    (addr n : ℕ) : st.serverRegions.resolve IbvMr.rkey mr.rkey addr n =
      if base.toNat ≤ addr ∧ addr + n ≤ base.toNat + mr.length then some .gpu else none := by
  rw [st.serverRegions.resolve_gpu st.rkeys (mem_of_remoteRegion hmr), addr_of_remoteRegion hmr]

/-- A start plus `n` bytes is found inside a region exactly when the block fits: a wrapped start
lies below the region. -/
theorem inside_iff_fits {mr : IbvMr} {b : TensorBlock} {n : ℕ} :
    b.basePtr.toNat ≤ (b.basePtr + b.offset).toNat ∧
      (b.basePtr + b.offset).toNat + n ≤ b.basePtr.toNat + mr.length ↔ Fits mr b n := by
  have hb := b.basePtr.toNat_lt
  have ho := b.offset.toNat_lt
  rw [UInt64.toNat_add, Fits]
  rcases Nat.lt_or_ge (b.basePtr.toNat + b.offset.toNat) (2 ^ 64) with h | h
  · rw [Nat.mod_eq_of_lt h]
    omega
  · rw [Nat.mod_eq_sub_mod h, Nat.mod_eq_of_lt (by omega)]
    omega

/-! ### Transfers -/

/-- Nothing has moved and nobody has been notified. -/
structure Quiet (net net' : Net) : Prop where
  /-- The client's GPU memory. -/
  client : net'.client .gpu = net.client .gpu
  /-- The server's GPU memory. -/
  server : net'.server .gpu = net.server .gpu
  /-- The effects. -/
  effects : net'.effects = net.effects

theorem Quiet.refl (net : Net) : Quiet net net := ⟨rfl, rfl, rfl⟩

theorem Quiet.trans {net₁ net₂ net₃ : Net} (h : Quiet net₁ net₂) (h' : Quiet net₂ net₃) :
    Quiet net₁ net₃ :=
  ⟨h'.client.trans h.client, h'.server.trans h.server, h'.effects.trans h.effects⟩

/-- A turn that ruins the connection, or finds it ruined: the worker goes on with a queue pair in
the error state, or it has panicked. Either way nothing has moved. -/
def Ruins (w : World) (o : Outcome iface World (Option Unit)) : Prop :=
  (∃ w', o = .done none w' ∧ w'.Idle ∧ w.SameQueue w' ∧ w'.net.qpError = true ∧
    Quiet w.net w'.net) ∨ (Setup.Aborted o ∧ Quiet w.net o.state.net)

variable {op : Connection → IbvMr → UInt64 → UInt64 → UInt32 → Fallible Unit} {opcode : WrOpcode}
  {loc rem : TensorBlock} {q : IbvMr × GPUMemBuffer} {mr : IbvMr}

theorem ruins_panic (msg : String) :
    Ruins w (Prog.interp (st.answer wraps) (Task.panic msg : Task (Option Unit)) w) :=
  .inr ⟨trivial, Quiet.refl _⟩

theorem interp_addU64_of_lt {a b : UInt64} (h : a.toNat + b.toNat < 2 ^ 64) :
    Prog.interp (st.answer wraps) (Task.addU64 a b) w = .done (a + b) w := by
  rw [Task.addU64_of_lt h, Prog.interp_ret]

/-- A sum is computed, or its overflow ends the task. -/
theorem ruins_of_addU64 {a b : UInt64} {f : UInt64 → Task (Option Unit)}
    (h : Ruins w (Prog.interp (st.answer wraps) (f (a + b)) w)) :
    Ruins w (Prog.interp (st.answer wraps) ((Task.addU64 a b).bind f) w) := by
  by_cases hab : a.toNat + b.toNat < 2 ^ 64
  · rwa [Task.addU64_of_lt hab]
  · rw [Task.addU64_of_ge hab]
    cases wraps with
    | true => exact h
    | false => exact .inr ⟨trivial, Quiet.refl _⟩

/-- **A valid transfer** is one request that takes effect. -/
theorem interp_transferArm (wraps : Bool) (hop : Client.IsTransfer op opcode) (hw : w.Idle)
    (hq : w.net.qpError = false)
    (hloc : st.localRegion loc.basePtr = some q) (hlocFits : Fits q.1 loc loc.size.toNat)
    (hrem : st.remoteRegion rem.basePtr = some mr) (hremFits : Fits mr rem loc.size.toNat) :
    Prog.interp (st.answer wraps) (Client.transferArm st.session op loc rem) w =
      .done none { w with
        net := st.transfer w.taken w.net
          (Client.transferWr opcode (Setup.toConnection mr) q.1 (loc.basePtr + loc.offset)
            (rem.basePtr + rem.offset) loc.size) .gpu .gpu
        posts := w.posts + 1 } := by
  obtain ⟨name, what, hop⟩ := hop
  have hbase : (Setup.toConnection mr).basePtr = rem.basePtr := addr_of_remoteRegion hrem
  have hlocal := (resolve_local hloc (loc.basePtr + loc.offset).toNat loc.size.toNat).trans
    (if_pos (inside_iff_fits.mpr hlocFits))
  have hremote := (resolve_remote hrem (rem.basePtr + rem.offset).toNat loc.size.toNat).trans
    (if_pos (inside_iff_fits.mpr hremFits))
  rw [Client.transferArm_of_lookup (by rw [lookup_remote, hrem]; rfl)
    ((lookup_local st _).trans hloc), hbase, Prog.interp_bind, interp_addU64_of_lt hlocFits.1]
  simp only []
  rw [Prog.interp_bind, interp_addU64_of_lt hremFits.1]
  simp only [hop]
  rw [Prog.interp_bind, interp_postAndPoll_of_resolve .gpu .gpu hw hq
    (by simpa [Client.transferSge] using hlocal)
    (by simpa [Client.transferWr, Setup.toConnection] using hremote)]
  rfl

/-- **A transfer that is not valid**, or comes after the queue pair has failed, ruins the
connection. -/
theorem ruins_transferArm (hop : Client.IsTransfer op opcode) (hw : w.Idle)
    (hbad : w.net.qpError = true ∨
      ¬ ((∃ q ∈ st.localRegion loc.basePtr, Fits q.1 loc loc.size.toNat) ∧
        ∃ mr ∈ st.remoteRegion rem.basePtr, Fits mr rem loc.size.toNat)) :
    Ruins w (Prog.interp (st.answer wraps) (Client.transferArm st.session op loc rem) w) := by
  cases hrem : st.remoteRegion rem.basePtr with
  | none =>
    rw [Client.transferArm_of_lookup_remote_none (by rw [lookup_remote, hrem]; rfl)]
    exact ruins_panic _
  | some mr =>
    cases hloc : st.localRegion loc.basePtr with
    | none =>
      rw [Client.transferArm_of_lookup_local_none ((lookup_local st _).trans hloc)]
      exact ruins_panic _
    | some q =>
      obtain ⟨name, what, hop⟩ := hop
      have hbase : (Setup.toConnection mr).basePtr = rem.basePtr := addr_of_remoteRegion hrem
      rw [Client.transferArm_of_lookup (by rw [lookup_remote, hrem]; rfl)
        ((lookup_local st _).trans hloc), hbase]
      refine ruins_of_addU64 (ruins_of_addU64 ?_)
      rw [hop]
      have hrefuses : st.Refuses w.net (Client.transferWr opcode (Setup.toConnection mr) q.1
          (loc.basePtr + loc.offset) (rem.basePtr + rem.offset) loc.size) := by
        refine hbad.imp_right ?_
        intro hbad
        by_contra hboth
        obtain ⟨hl, hr⟩ := not_or.mp hboth
        refine hbad ⟨⟨q, hloc, ?_⟩, mr, hrem, ?_⟩
        · by_contra hfit
          refine hl ((resolve_local hloc _ _).trans (if_neg fun hin => hfit ?_))
          simpa [Client.transferSge] using inside_iff_fits.mp hin
        · by_contra hfit
          refine hr ((resolve_remote hrem _ _).trans (if_neg fun hin => hfit ?_))
          simpa [Client.transferWr] using inside_iff_fits.mp hin
      obtain ⟨e, he⟩ := interp_postAndPoll_of_refuses st wraps _ hw hrefuses name what
      rw [Prog.interp_bind, he]
      exact .inl ⟨_, rfl, hw, ⟨rfl, rfl, rfl⟩, rfl, ⟨rfl, rfl, rfl⟩⟩

/-! ### Notifications -/

/-- The page regions are where the session says they are. -/
theorem resolve_pages (st : Setup) (size : UInt16) :
    st.clientRegions.resolve IbvMr.lkey
        (metadataWr st.session.cpuConn st.session.cpuMr st.session.cpuBuffer size).sge.lkey
        st.clientCpu.addr.toNat cpuBufferBaseSize = some .page ∧
      st.serverRegions.resolve IbvMr.rkey
        (metadataWr st.session.cpuConn st.session.cpuMr st.session.cpuBuffer size).rkey
        st.serverCpu.addr.toNat cpuBufferBaseSize = some .page := by
  refine ⟨Regions.resolve_cpu ⟨Nat.le_refl _, ?_⟩, Regions.resolve_cpu ⟨Nat.le_refl _, ?_⟩⟩
  · exact Nat.le_of_eq (congrArg _ st.clientCpu_length.symm)
  · exact Nat.le_of_eq (congrArg _ st.serverCpu_length.symm)

/-- **A page that has been written and sent is decoded to what was written**, whatever either page
held before. -/
theorem notice_copy_writePage {n : Notification} (h : n.serializedSize ≤ cpuBufferBaseSize)
    (net : Net) (buf : MemBuffer) (addr : ℕ) :
    notice (Memory.copy net.server (net.writePage buf n.serialize).client .page .page addr
      buf.ptr.toNat cpuBufferBaseSize .page) addr
      (htonl (UInt16.ofNat n.serializedSize).toUInt32) = some n := by
  have hlen : n.serialize.length ≤ cpuBufferBaseSize := h
  have hsize : (ntohl (htonl (UInt16.ofNat n.serializedSize).toUInt32)).toNat =
      n.serialize.length := by
    rw [ntohl_htonl, UInt16.toNat_toUInt32, UInt16.toNat_ofNat_of_lt' (by
      have : cpuBufferBaseSize < UInt16.size := by decide
      omega)]
    rfl
  have hread : readBytes (Memory.copy net.server (net.writePage buf n.serialize).client .page .page
      addr buf.ptr.toNat cpuBufferBaseSize .page) addr n.serialize.length = n.serialize := by
    rw [Memory.copy, Function.update_self, readBytes_copyRange hlen, Net.writePage]
    simp only [Function.update_self, Nat.min_eq_left hlen]
    rw [readBytes_copyRange (Nat.le_refl _), readBytes_getD]
  rw [notice, hsize, if_pos hlen, hread, Notification.deserialize_serialize h]
  rfl

/-- A page that has been written is sent: the server is notified, and nothing else has changed. -/
theorem interp_announce (st : Setup) (wraps : Bool) {n : Notification}
    (h : n.serializedSize ≤ cpuBufferBaseSize) (hw : w.Idle) (hq : w.net.qpError = false)
    {net : Net} (hnet : w.net = net.writePage st.session.cpuBuffer n.serialize) (op what : String) :
    ∃ w', Prog.interp (st.answer wraps) (postAndPoll (metadataWr st.session.cpuConn st.session.cpuMr
        st.session.cpuBuffer (UInt16.ofNat n.serializedSize)) op what).run w = .done (.ok ()) w' ∧
      w'.Idle ∧ w.SameQueue w' ∧ w'.net.qpError = false ∧
      w'.net.client .gpu = net.client .gpu ∧ w'.net.server .gpu = net.server .gpu ∧
      w'.net.effects = net.effects ++ [(w.taken, .notified (some n))] := by
  obtain ⟨hloc, hrem⟩ := resolve_pages st (UInt16.ofNat n.serializedSize)
  refine ⟨_, interp_postAndPoll_of_resolve _ _ hw hq hloc hrem op what, hw, ⟨rfl, rfl, rfl⟩, hq, ?_⟩
  have hnotice := notice_copy_writePage h net st.session.cpuBuffer st.serverCpu.addr.toNat
  simp only [hnet]
  refine ⟨?_, ?_, ?_⟩
  · rfl
  · rfl
  · exact congrArg (fun o => net.effects ++ [(w.taken, Effect.notified o)]) hnotice

end Fabric

end RdmaTransport
