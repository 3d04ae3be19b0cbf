import RdmaTransport.Handshake.Peer

/-!
# The client's half of the handshake

`connect` sends its page, receives the server's, and waits until the server has written the list of
its buffers into the page. A receive may complete with an error once the server has disconnected,
and that ends the handshake too.

## Main definitions

* `ConnectStage` — how far `connect` is
* `ConnectRule` — what each operation finds

## Main results

* `ensures_connect` — `connect` follows the rule, and what it returns
-/

namespace RdmaTransport

open Interaction

/-! ### Stages -/

/-- How far `connect` is. -/
inductive ConnectStage
  /-- The connection is not used yet. -/
  | start
  /-- `server_conn` is at this address. -/
  | slot (a : UInt64)
  /-- A receive is posted there. -/
  | listening (a : UInt64)
  /-- The connection is up. -/
  | connected (a : UInt64)
  /-- `client_conn` is placed and holds this. -/
  | ready (a b : UInt64) (own : Connection)
  /-- It is sent. -/
  | sent (a : UInt64) (own : Connection)
  /-- The send has completed. -/
  | told (a : UInt64) (own : Connection)
  /-- The receive has completed. -/
  | heard (a : UInt64) (own : Connection)
  /-- `server_conn` has been read. -/
  | knows (own peer : Connection)
  /-- A receive is posted for the list. -/
  | expecting (own peer : Connection)
  /-- It has completed. -/
  | notified (own peer : Connection) (wc : IbvWc)
  /-- The page has been read. -/
  | read (own peer : Connection) (wc : IbvWc) (page : Page)
  /-- A receive has completed with an error. -/
  | flushed (own : Connection)

namespace ConnectStage

/-- What an event makes of a stage. -/
def advance : ConnectStage → Event → ConnectStage
  | start, .placed a _ => slot a
  | slot a, .receiving _ => listening a
  | listening a, .linked => connected a
  | connected a, .placed b own => ready a b own
  | ready a _ own, .posted _ => sent a own
  | sent a own, .polled _ _ => told a own
  | told a own, .polled _ wc => if wc.status = ibvWcSuccess then heard a own else flushed own
  | heard _ own, .fetched _ peer => knows own peer
  | knows own peer, .receiving _ => expecting own peer
  | expecting own peer, .polled _ wc =>
    if wc.status = ibvWcSuccess then notified own peer wc else flushed own
  | notified own peer wc, .saw page => read own peer wc page
  | stage, _ => stage

end ConnectStage

/-- The view of `connect`. -/
abbrev ConnectView := PeerView ConnectStage

/-- The environment of `connect`. -/
abbrev ConnectView.handler := PeerView.handler ConnectStage.advance

/-- The messages are exchanged in order, and what is sent is one's own page. -/
def ConnectRule (op : Op) (v : ConnectView) : Prop :=
  match op with
  | .newPage => v.stage = .start
  | .letConn conn => v.stage = .start ∨
      ∃ a mr buf, v.stage = .connected a ∧ a ∈ v.vars ∧ v.Owns conn mr buf
  | .ibvPostRecv wr => v.stage = .slot wr.sge.addr ∨ ∃ own peer, v.stage = .knows own peer
  | .rdmaConnect => ∃ a, v.stage = .listening a
  | .ibvPostSend wr => ∃ a own, v.stage = .ready a wr.sge.addr own ∧ wr.opcode = .send
  | .ibvPollCq .send => ∃ a own, v.stage = .sent a own
  | .ibvPollCq .recv => (∃ a own, v.stage = .told a own) ∨ ∃ own peer, v.stage = .expecting own peer
  | .readConn addr => ∃ own, v.stage = .heard addr own
  | .readPage _ => ∃ own peer wc, v.stage = .notified own peer wc
  | .rdmaAccept => False
  | .rdmaDisconnect => False
  | .writePage _ _ => False
  | _ => True

/-- `connect` returns its own page and what it has received. -/
def Connected (out : Connection × (IbvMr × MemBuffer) × LocalGpuBuffers × HashMap Connection)
    (v : ConnectView) : Prop :=
  ∃ (wc : IbvWc) (page : Page) (cs : Connections)
    (h : (ntohl wc.immData).toNat ≤ cpuBufferBaseSize),
    v.stage = .read ⟨out.2.1.2.ptr, out.2.1.1.rkey⟩ out.1 wc page ∧
    Connections.deserialize (page.slice (ntohl wc.immData).toNat h) = .ok cs ∧
    out.2.2.2 = Client.remoteMap cs.conns

section Rules

variable {v : ConnectView}

/-- **The exchange of pages.** -/
theorem Client.ensures_establishConn {cpuMr : IbvMr} {cpuBuffer : MemBuffer}
    (hstage : v.stage = .start) (howns : v.Owns ⟨cpuBuffer.ptr, cpuMr.rkey⟩ cpuMr cpuBuffer) :
    (Client.establishConn cpuMr cpuBuffer).Ensures ConnectView.handler ConnectRule
      (fun peer v' => v'.stage = .knows ⟨cpuBuffer.ptr, cpuMr.rkey⟩ peer) v := by
  obtain ⟨-, hcpu, hmem, haddr⟩ := howns
  refine .andThen (P := fun a v₁ => v₁.stage = .slot a ∧ a ∈ v₁.vars ∧
      v₁.cpuBuffer = some cpuBuffer ∧ cpuMr ∈ v₁.regs)
    (ensures_letConn (.inl hstage) fun a _ =>
      ⟨by simp [PeerView.place, hstage, ConnectStage.advance], List.mem_cons_self, hcpu, hmem⟩) ?_
  rintro a v₁ ⟨hslot, ha, hcpu₁, hmem₁⟩
  refine .andThen (P := fun _ v₂ => v₂.stage = .listening a ∧ a ∈ v₂.vars ∧
      v₂.cpuBuffer = some cpuBuffer ∧ cpuMr ∈ v₂.regs)
    (ensures_ibvPostRecv (.inl hslot)
      ⟨by simp [PeerView.on, hslot, ConnectStage.advance], ha, hcpu₁, hmem₁⟩) ?_
  rintro _ v₂ ⟨hlistening, ha₂, hcpu₂, hmem₂⟩
  refine .andThen (P := fun _ v₃ => v₃.stage = .connected a ∧ a ∈ v₃.vars ∧
      v₃.cpuBuffer = some cpuBuffer ∧ cpuMr ∈ v₃.regs)
    (ensures_rdmaConnect ⟨a, hlistening⟩
      ⟨by simp [PeerView.on, hlistening, ConnectStage.advance], ha₂, hcpu₂, hmem₂⟩) ?_
  rintro _ v₃ ⟨hconnected, ha₃, hcpu₃, hmem₃⟩
  refine .andThen (P := fun b v₄ => v₄.stage = .ready a b ⟨cpuBuffer.ptr, cpuMr.rkey⟩)
    (ensures_letConn (.inr ⟨a, cpuMr, cpuBuffer, hconnected, ha₃, rfl, hcpu₃, hmem₃, haddr⟩)
      fun b _ => by simp [PeerView.place, hconnected, ConnectStage.advance]) ?_
  intro b v₄ hready
  refine .andThen (P := fun _ v₅ => v₅.stage = .sent a ⟨cpuBuffer.ptr, cpuMr.rkey⟩)
    (ensures_ibvPostSend ⟨a, _, hready, rfl⟩
      (by simp [PeerView.on, hready, ConnectStage.advance])) ?_
  intro _ v₅ hsent
  refine .andThen (P := fun _ v₆ => v₆.stage = .told a ⟨cpuBuffer.ptr, cpuMr.rkey⟩)
    (ensures_pollComp ⟨a, _, hsent⟩ fun wc _ =>
      by simp [PeerView.on, hsent, ConnectStage.advance]) ?_
  intro _ v₆ htold
  refine .andThen (P := fun _ v₇ => v₇.stage = .heard a ⟨cpuBuffer.ptr, cpuMr.rkey⟩)
    (ensures_pollComp (.inl ⟨a, _, htold⟩) fun wc hwc =>
      by simp [PeerView.on, htold, ConnectStage.advance, hwc]) ?_
  intro _ v₇ hheard
  refine .andThen (P := fun peer v₈ => v₈.stage = .knows ⟨cpuBuffer.ptr, cpuMr.rkey⟩ peer)
    (ensures_readConn ⟨_, hheard⟩ fun peer =>
      by simp [PeerView.on, hheard, ConnectStage.advance]) ?_
  intro peer v₈ hknows
  exact Fallible.ensures_pure hknows

/-- **`connect`** follows the rule, from the registrations to the list of the server's buffers. -/
theorem ensures_connect {gpuOrdinal : Int} {bufs : List GPUMemBuffer} (hstage : v.stage = .start) :
    (Client.connect gpuOrdinal bufs).Ensures ConnectView.handler ConnectRule Connected v := by
  refine .andThen (P := fun _ v₁ => v₁.stage = .start) (ensures_ibvModifyQp trivial hstage) ?_
  intro _ v₁ h₁
  refine ensures_setUp h₁ (fun _ _ _ _ => trivial) (fun _ => trivial) (fun _ => trivial)
    (fun _ => trivial) ?_
  intro cpuBuffer cpuMr regs v₂ hstage₂ howns _
  refine .andThen (Client.ensures_establishConn (hstage₂.trans h₁) howns) ?_
  intro peer v₃ hknows
  refine .andThen (P := fun _ v₄ => v₄.stage = .expecting ⟨cpuBuffer.ptr, cpuMr.rkey⟩ peer)
    (ensures_ibvPostRecv (.inr ⟨_, _, hknows⟩)
      (by simp [PeerView.on, hknows, ConnectStage.advance])) ?_
  intro _ v₄ hexpecting
  refine .andThen (P := fun wc v₅ => v₅.stage = .notified ⟨cpuBuffer.ptr, cpuMr.rkey⟩ peer wc)
    (ensures_pollComp (.inr ⟨_, _, hexpecting⟩) fun wc hwc =>
      by simp [PeerView.on, hexpecting, ConnectStage.advance, hwc]) ?_
  intro wc v₅ hnotified
  split
  · exact Fallible.ensures_fail
  refine .andThen (P := fun data v₆ => ∃ (page : Page)
      (h : (ntohl wc.immData).toNat ≤ cpuBufferBaseSize),
      v₆.stage = .read ⟨cpuBuffer.ptr, cpuMr.rkey⟩ peer wc page ∧
        data = page.slice (ntohl wc.immData).toNat h)
    (ensures_slicePage ⟨_, _, _, hnotified⟩ (fun _ _ => trivial) fun page h =>
      ⟨page, h, by simp [PeerView.on, hnotified, ConnectStage.advance], rfl⟩) ?_
  rintro data v₆ ⟨page, hle, hread, hdata⟩
  refine .andThen (P := fun cs v₇ => v₇ = v₆ ∧ Connections.deserialize data = .ok cs)
    (Fallible.ensures_ofExcept fun cs hcs => ⟨rfl, ?_⟩) fun cs v₇ ⟨hv₇, hcs⟩ => ?_
  · cases hdec : Connections.deserialize data with
    | ok cs' => rw [hdec] at hcs; cases hcs; rfl
    | error e => rw [hdec] at hcs; cases hcs
  subst hv₇
  exact Fallible.ensures_pure ⟨wc, page, cs, hle, hread, hdata ▸ hcs, rfl⟩

end Rules

end RdmaTransport
