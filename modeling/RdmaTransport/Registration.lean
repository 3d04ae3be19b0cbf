import RdmaTransport.Footprints
import RdmaTransport.Internal.InsertAll

/-!
# What a client has registered

`connect` registers one region for each buffer it is given and keeps the regions in a map by base
pointer. The buffers of a `VllmRdmaClient` come from its tensor blocks, and the conversion keeps the
size of a block but not its offset; a transfer of the block then starts at base pointer *plus*
offset. Of several blocks with one base pointer the map keeps the region of the last.

So the range a transfer posts lies inside the region it posts it with exactly when offset and size
of the block fit into the size of the last block at that base pointer: `transferSge_mem_iff`.

## Main results

* `returns_registerLoop` — what a registration loop returns
* `localMap_of_connect` — the local map of a client, in every run of `connect`
* `Client.postsRange_of_lookup` — what a transfer posts
* `transferSge_mem_iff` — when every block can be transferred whole
-/

namespace RdmaTransport

open Interaction

/-! ### The registration loop -/

/-- The region covers exactly the buffer. -/
def RegisteredFor (q : IbvMr × GPUMemBuffer) : Prop :=
  q.1.addr = q.2.basePtr ∧ q.1.length = q.2.size

theorem returns_ibvRegMr {addr : UInt64} {length : ℕ} {access : UInt32} {mr : IbvMr}
    (h : (ibvRegMr addr length access).run.Returns (.ok mr)) :
    mr.addr = addr ∧ mr.length = length := by
  obtain ⟨r, hr⟩ := h
  cases r with
  | none => cases hr
  | some keys => cases hr; exact ⟨rfl, rfl⟩

/-- **Registration.** In every run the loop returns the bookkeeping of one region for each buffer,
in the order of the buffers. -/
theorem returns_registerLoop {β : Type} {body : β → IbvMr → GPUMemBuffer → β}
    {bufs : List GPUMemBuffer} {acc r : β}
    (h : (registerLoop body bufs acc).run.Returns (.ok r)) :
    ∃ regs : List (IbvMr × GPUMemBuffer), regs.map Prod.snd = bufs ∧
      (∀ q ∈ regs, RegisteredFor q) ∧ r = regs.foldl (fun acc q => body acc q.1 q.2) acc := by
  induction bufs generalizing acc with
  | nil => cases h; exact ⟨[], rfl, by simp, rfl⟩
  | cons buffer rest ih =>
    obtain ⟨mr, hmr, hrest⟩ := Fallible.returns_andThen.mp h
    obtain ⟨regs, hregs, hall, rfl⟩ := ih hrest
    refine ⟨(mr, buffer) :: regs, by simp [hregs], ?_, rfl⟩
    simp only [List.forall_mem_cons]
    exact ⟨returns_ibvRegMr hmr, hall⟩

/-- **The local map.** Whatever the environment does, the map `connect` returns is filled from the
regions of the buffers, in their order. -/
theorem localMap_of_connect {gpuOrdinal : Int} {bufs : List GPUMemBuffer}
    {out : Connection × (IbvMr × MemBuffer) × LocalGpuBuffers × HashMap Connection}
    (h : (Client.connect gpuOrdinal bufs).run.Returns (.ok out)) :
    ∃ regs : List (IbvMr × GPUMemBuffer), regs.map Prod.snd = bufs ∧
      (∀ q ∈ regs, RegisteredFor q) ∧
        out.2.2.1 = insertAll (fun q => q.2.basePtr) id regs ∅ := by
  obtain ⟨_, _, h⟩ := Fallible.returns_andThen.mp h
  obtain ⟨page, _, h⟩ := Fallible.returns_andThen.mp h
  obtain ⟨cpuMr, _, h⟩ := Fallible.returns_andThen.mp h
  obtain ⟨_, _, h⟩ := Fallible.returns_andThen.mp h
  obtain ⟨_, _, h⟩ := Fallible.returns_andThen.mp h
  obtain ⟨localMap, hloop, h⟩ := Fallible.returns_andThen.mp h
  obtain ⟨regs, hregs, hall, rfl⟩ := returns_registerLoop hloop
  refine ⟨regs, hregs, hall, ?_⟩
  obtain ⟨conn, _, h⟩ := Fallible.returns_andThen.mp h
  obtain ⟨_, _, h⟩ := Fallible.returns_andThen.mp h
  obtain ⟨wc, _, h⟩ := Fallible.returns_andThen.mp h
  split at h
  · cases h
  · obtain ⟨data, _, h⟩ := Fallible.returns_andThen.mp h
    obtain ⟨conns, _, h⟩ := Fallible.returns_andThen.mp h
    cases h
    rfl

/-! ### Blocks -/

/-- The region a block is looked up at is that of the last block with its base pointer. -/
theorem lookup_localMap {gpuOrdinal : Int} {blocks : TensorBlocks}
    {out : Connection × (IbvMr × MemBuffer) × LocalGpuBuffers × HashMap Connection}
    (h : (Client.connect gpuOrdinal (blocks.map TensorBlock.intoGPUMemBuffer)).run.Returns
      (.ok out))
    {k : UInt64} {c : TensorBlock} (hc : lastAt TensorBlock.basePtr blocks k = some c) :
    ∃ q : IbvMr × GPUMemBuffer, out.2.2.1.lookup k = some q ∧ q.1.addr = c.basePtr ∧
      q.1.length = c.size.toNat := by
  obtain ⟨regs, hregs, hall, hmap⟩ := localMap_of_connect h
  have hlast : (lastAt (fun q => q.2.basePtr) regs k).map Prod.snd = some c.intoGPUMemBuffer := by
    rw [← lastAt_map GPUMemBuffer.basePtr Prod.snd regs k, hregs, lastAt_map]
    exact congrArg (Option.map TensorBlock.intoGPUMemBuffer) hc
  obtain ⟨q, hq, hqc⟩ := Option.map_eq_some_iff.mp hlast
  obtain ⟨haddr, hlen⟩ := hall q (mem_of_lastAt hq)
  refine ⟨q, ?_, ?_, ?_⟩
  · rw [hmap, lookup_insertAll, hq]
    rfl
  · rw [haddr, hqc]
    rfl
  · rw [hlen, hqc]
    rfl

/-- The task hands this work request to `ibv_post_send` in some run. -/
def Task.Posts {α : Type} (p : Task α) (wr : IbvSendWr) : Prop :=
  p.MayPerform (Op.ibvPostSend wr : iface.Op)

/-- A `Send` and a `Recv` of the block `loc` can come to an `ibv_post_send`, and whatever they hand
to it has the local range `sge`. -/
def Client.PostsRange (s : Session) (loc rem : TensorBlock) (sge : IbvSge) : Prop :=
  ∀ cmd ∈ [Command.send loc rem, .recv loc rem],
    (∃ wr, Task.Posts (Client.arm s cmd) wr) ∧
      ∀ wr, Task.Posts (Client.arm s cmd) wr → wr.sge = sge

/-- With both map entries there, a transfer comes to its post. -/
theorem Client.posts_transferArm {s : Session} {loc rem : TensorBlock} {conn : Connection}
    {q : IbvMr × GPUMemBuffer} {opcode : WrOpcode}
    {op : Connection → IbvMr → UInt64 → UInt64 → UInt32 → Fallible Unit}
    (hop : Client.IsTransfer op opcode)
    (hrem : s.remoteGpuBuffers.lookup rem.basePtr = some conn)
    (hloc : s.localGpuBuffers.lookup loc.basePtr = some q) :
    Task.Posts (Client.transferArm s op loc rem) (Client.transferWr opcode conn q.1
      (loc.basePtr + loc.offset) (conn.basePtr + rem.offset) loc.size) := by
  obtain ⟨name, what, hop⟩ := hop
  rw [Client.transferArm_of_lookup hrem hloc]
  refine Prog.mayPerform_bind_of_returns (Task.returns_addU64.mpr rfl) ?_
  refine Prog.mayPerform_bind_of_returns (Task.returns_addU64.mpr rfl) ?_
  rw [hop]
  exact Prog.MayPerform.bind (.inl rfl)

/-- **The range of a transfer** is that of its block, with the key of the region that is looked up
for it. -/
theorem Client.postsRange_of_lookup {s : Session} {loc rem : TensorBlock} {conn : Connection}
    {q : IbvMr × GPUMemBuffer} (hsize : loc.size > 0)
    (hrem : s.remoteGpuBuffers.lookup rem.basePtr = some conn)
    (hloc : s.localGpuBuffers.lookup loc.basePtr = some q) :
    Client.PostsRange s loc rem (Client.transferSge q.1 loc) := by
  have hsge (opcode : WrOpcode) (wr : IbvSendWr)
      (h : wr ∈ Client.transferRequests s opcode loc rem) :
      wr.sge = Client.transferSge q.1 loc := by
    obtain ⟨-, conn', q', -, hloc', rfl⟩ := Client.mem_transferRequests.mp h
    obtain rfl : q = q' := Option.some.inj (hloc.symm.trans hloc')
    exact Client.sge_transferWr _ _ _ _ _
  intro cmd hcmd
  refine ⟨?_, fun wr hwr => ?_⟩
  · rcases List.mem_pair.mp hcmd with rfl | rfl <;> rw [Client.arm, if_pos hsize]
    · exact ⟨_, Client.posts_transferArm Client.isTransfer_write hrem hloc⟩
    · exact ⟨_, Client.posts_transferArm Client.isTransfer_read hrem hloc⟩
  · have hmem : wr ∈ Client.requests s cmd := (Client.only_arm s cmd).of_mayPerform hwr
    rcases List.mem_pair.mp hcmd with rfl | rfl
    · exact hsge _ _ hmem
    · exact hsge _ _ hmem

/-- **Transferring a block whole.** After any run of `connect` on the buffers of some blocks, the
range a transfer of a block posts lies in the region it is posted with, for every block of positive
size, if and only if offset and size of each such block fit into the size of the last block with
the same base pointer. And this is the range that the worker's arms hand over, with the region that
they look up. -/
theorem transferSge_mem_iff {gpuOrdinal : Int} {blocks : TensorBlocks}
    {out : Connection × (IbvMr × MemBuffer) × LocalGpuBuffers × HashMap Connection}
    (h : (Client.connect gpuOrdinal (blocks.map TensorBlock.intoGPUMemBuffer)).run.Returns
      (.ok out))
    (hfit : ∀ b ∈ blocks, b.basePtr.toNat + b.offset.toNat + b.size.toNat < 2 ^ 64) :
    ((∀ b ∈ blocks, b.size > 0 → ∃ q, out.2.2.1.lookup b.basePtr = some q ∧
        q.1.Contains (Client.transferSge q.1 b)) ↔
      ∀ b ∈ blocks, b.size > 0 → ∀ c, lastAt TensorBlock.basePtr blocks b.basePtr = some c →
        b.offset.toNat + b.size.toNat ≤ c.size.toNat) ∧
    ∀ b ∈ blocks, b.size > 0 → ∃ q, out.2.2.1.lookup b.basePtr = some q ∧
      ∀ rem conn, out.2.2.2.lookup rem.basePtr = some conn →
        Client.PostsRange ⟨out.1, out.2.1.1, out.2.1.2, out.2.2.1, out.2.2.2⟩ b rem
          (Client.transferSge q.1 b) := by
  refine ⟨forall₃_congr ?_, ?_⟩
  · intro b hb _
    obtain ⟨c, hc, hbase⟩ := exists_lastAt TensorBlock.basePtr hb
    obtain ⟨q, hq, haddr, hlen⟩ := lookup_localMap h hc
    have hsum : (b.basePtr + b.offset).toNat = b.basePtr.toNat + b.offset.toNat := by
      have := hfit b hb
      rw [UInt64.toNat_add, Nat.mod_eq_of_lt (by omega)]
    have hcontains : q.1.Contains (Client.transferSge q.1 b) ↔
        b.offset.toNat + b.size.toNat ≤ c.size.toNat := by
      simp only [IbvMr.Contains, Client.transferSge, haddr, hlen, hbase, hsum]
      omega
    simp only [hq, hc, Option.some.injEq, exists_eq_left', forall_eq', hcontains]
  · intro b hb hsize
    obtain ⟨c, hc, -⟩ := exists_lastAt TensorBlock.basePtr hb
    obtain ⟨q, hq, -, -⟩ := lookup_localMap h hc
    exact ⟨q, hq, fun rem conn hrem => Client.postsRange_of_lookup hsize hrem hq⟩

/-- An environment in which every call succeeds and the server offers no buffers. -/
def obliging : (op : Op) → Unit → Option (op.Ans × Unit)
  | .ibvPostSend _, _ | .ibvPostRecv _, _ | .ibvModifyQp _, _ | .rdmaConnect, _ =>
    some (.ret 0 0, ())
  | .ibvPollCq _, _ => some (.entry ⟨ibvWcSuccess, ibvWcRecvRdmaWithImm, htonl 8⟩, ())
  | .ibvRegMr _ _ _, _ => some (some (1, 1), ())
  | .cuDeviceGet _, _ | .cuDevicePrimaryCtxRetain, _ | .cuCtxSetCurrent, _ => some (0, ())
  | .newPage, _ => some (⟨4096⟩, ())
  | .readPage _, _ => some (Page.zero, ())
  | .letConn _, _ => some (8192, ())
  | .readConn _, _ => some (.zero, ())
  | _, _ => none

theorem transferSge_mem_iff_two : ∃ out,
    (Client.connect 0 ([⟨4096, 0, 16⟩, ⟨4096, 0, 32⟩].map TensorBlock.intoGPUMemBuffer)).run.Returns
      (.ok out) ∧
    ((∀ b ∈ [(⟨4096, 0, 16⟩ : TensorBlock), ⟨4096, 0, 32⟩], b.size > 0 →
        ∃ q, out.2.2.1.lookup b.basePtr = some q ∧ q.1.Contains (Client.transferSge q.1 b)) ↔
      ∀ b ∈ [(⟨4096, 0, 16⟩ : TensorBlock), ⟨4096, 0, 32⟩], b.size > 0 →
        ∀ c, lastAt TensorBlock.basePtr [⟨4096, 0, 16⟩, ⟨4096, 0, 32⟩] b.basePtr = some c →
          b.offset.toNat + b.size.toNat ≤ c.size.toNat) := by
  have hrun := Prog.returns_of_interp (h := obliging) (s := ())
    (p := (Client.connect 0
      ([⟨4096, 0, 16⟩, ⟨4096, 0, 32⟩].map TensorBlock.intoGPUMemBuffer)).run) rfl
  exact ⟨_, hrun, (transferSge_mem_iff hrun (by decide)).1⟩

/-- A single block with an offset already leaves its own region. -/
theorem offset_block_leaves_region : ∃ out,
    (Client.connect 0 ([⟨4096, 8, 16⟩].map TensorBlock.intoGPUMemBuffer)).run.Returns (.ok out) ∧
    ¬ ∃ q, out.2.2.1.lookup 4096 = some q ∧
      q.1.Contains (Client.transferSge q.1 ⟨4096, 8, 16⟩) := by
  have hrun := Prog.returns_of_interp (h := obliging) (s := ())
    (p := (Client.connect 0 ([⟨4096, 8, 16⟩].map TensorBlock.intoGPUMemBuffer)).run) rfl
  refine ⟨_, hrun, ?_⟩
  rintro ⟨q, hq, hcontains⟩
  obtain ⟨q', hq', haddr, hlen⟩ := lookup_localMap hrun (c := ⟨4096, 8, 16⟩) (k := 4096) rfl
  obtain rfl : q = q' := Option.some.inj (hq.symm.trans hq')
  rw [IbvMr.Contains, haddr, hlen] at hcontains
  exact absurd hcontains.2 (by decide :
    ¬ (4096 + 8 : UInt64).toNat + (16 : UInt32).toNat ≤ (4096 : UInt64).toNat + (16 : UInt32).toNat)

end RdmaTransport
