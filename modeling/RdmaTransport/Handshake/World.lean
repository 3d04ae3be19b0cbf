import Mathlib.Logic.Function.Basic
import RdmaTransport.Handshake.Accept
import RdmaTransport.Handshake.Connect

/-!
# The handshake as a whole

`accept` and `connect` run against each other. Each side has its variables, its page, its posted
receives and its two completion queues, and the messages it has posted travel in order. A message
lands when the other side has a receive posted: a send puts its payload at the address of the
receive, a write with immediate puts the sender's page into the page it is addressed to, and either
completes the receive there and the request here. Once the server has disconnected, the client's
receives are flushed with an error. `rdma_connect` succeeds only after `rdma_accept` has, which is
assumed of the connection manager.

## Main definitions

* `End`, `land` — one side of the connection, and what travels
* `Handshake`, `Handshake.step` — the two programs and the connection
* `Handshake.InFlight`, `Handshake.ServerBlocked`, `Handshake.ClientBlocked`

## Main results

* `Party.act_eq_some` — what a step of a program consists of
-/

namespace RdmaTransport

open Interaction

/-! ### The connection -/

/-- What a work request sends. -/
inductive Msg
  /-- A variable, for the receive it consumes. -/
  | send (conn : Connection)
  /-- The page, for the page described by `peer`. -/
  | write (peer : Connection) (imm : UInt32)
  deriving DecidableEq

/-- One side of the connection. -/
structure End where
  /-- The variables, by address. -/
  slots : UInt64 → Connection
  /-- The page. -/
  page : Page
  /-- The addresses of the posted receives, oldest first. -/
  recvs : List UInt64
  /-- The completions of receives that have not been polled, oldest first. -/
  recvCq : List IbvWc
  /-- The completions of work requests that have not been polled, oldest first. -/
  sendCq : List IbvWc
  /-- What has been posted and has not landed, oldest first. -/
  outbox : List Msg
  /-- How many messages have landed here. -/
  landed : ℕ

/-- What a connection manager knows. -/
structure CmState where
  /-- `rdma_accept` has succeeded. -/
  accepted : Bool
  /-- The server's `rdma_disconnect` has succeeded. -/
  disconnected : Bool
  deriving DecidableEq

namespace End

/-- Before the handshake. What is in the memory does not matter. -/
def init (slots : UInt64 → Connection) (page : Page) : End := ⟨slots, page, [], [], [], [], 0⟩

variable (e : End)

/-- What a work request sends. A send is inline, so its payload is taken when it is posted. -/
def message (wr : IbvSendWr) : Msg :=
  match wr.opcode with
  | .send => .send (e.slots wr.sge.addr)
  | _ => .write ⟨wr.remoteAddr, wr.rkey⟩ wr.immData

/-- What an operation that has answered does on its side. Reading the page is a step of its own. -/
def after : (op : Op) → op.Ans → Option End
  | .letConn conn, a => some { e with slots := Function.update e.slots a conn }
  | .readConn addr, conn => if conn = e.slots addr then some e else none
  | .ibvPostRecv wr, r =>
    some (if CRet.isOk r then { e with recvs := e.recvs ++ [wr.sge.addr] } else e)
  | .ibvPostSend wr, r =>
    some (if CRet.isOk r then { e with outbox := e.outbox ++ [e.message wr] } else e)
  | .ibvPollCq cq, p =>
    match cq, p with
    | .send, .entry wc =>
      match e.sendCq with
      | wc' :: rest => if wc = wc' then some { e with sendCq := rest } else none
      | [] => none
    | .recv, .entry wc =>
      match e.recvCq with
      | wc' :: rest => if wc = wc' then some { e with recvCq := rest } else none
      | [] => none
    | _, _ => some e
  | .writePage _ bytes, _ => some { e with page := e.page.write bytes }
  | .readPage _, _ => none
  | _, _ => some e

/-- A completion queue. -/
def cq : Cq → List IbvWc
  | .send => e.sendCq
  | .recv => e.recvCq

/-- The oldest receive is flushed with an error. -/
def flush (status : UInt32) : Option End :=
  match e.recvs with
  | _ :: recvs =>
    if status = ibvWcSuccess then none
    else some { e with recvs := recvs, recvCq := e.recvCq ++ [⟨status, ibvWcRecv, 0⟩] }
  | [] => none

end End

/-- What an operation that has answered tells the connection manager.

Assumption on the connection manager: `rdma_connect` succeeds only after `rdma_accept` has. The two
calls meet, and while the server waits inside `rdma_accept` it does nothing else, so that what the
client would do in the meantime it does in the model right after the step of `rdma_accept`. -/
def CmState.after (cm : CmState) : (op : Op) → op.Ans → Option CmState
  | .rdmaAccept, r => some { cm with accepted := cm.accepted || CRet.isOk r }
  | .rdmaConnect, r => if CRet.isOk r = true ∧ cm.accepted = false then none else some cm
  | .rdmaDisconnect, r => some { cm with disconnected := cm.disconnected || CRet.isOk r }
  | _, _ => some cm

/-- The view lets a peer that knows `conn` write its page: it is the page, and one of the regions
registered for it has the key. -/
def PeerView.grants {St : Type} (v : PeerView St) (conn : Connection) : Bool :=
  v.cpuBuffer == some ⟨conn.basePtr⟩ &&
    v.regs.any fun mr => mr.addr == conn.basePtr && mr.rkey == conn.mrRkey

/-- The oldest message of `src` lands at `dst`. -/
def land (src dst : End) (grants : Connection → Bool) : Option (End × End) :=
  match src.outbox, dst.recvs with
  | msg :: outbox, a :: recvs =>
    let src' := { src with outbox := outbox, sendCq := src.sendCq ++ [⟨ibvWcSuccess, 0, 0⟩] }
    match msg with
    | .send conn =>
      some (src', { dst with
        slots := Function.update dst.slots a conn
        recvs := recvs
        recvCq := dst.recvCq ++ [⟨ibvWcSuccess, ibvWcRecv, 0⟩]
        landed := dst.landed + 1 })
    | .write peer imm =>
      if grants peer then
        some (src', { dst with
          page := src.page
          recvs := recvs
          recvCq := dst.recvCq ++ [⟨ibvWcSuccess, ibvWcRecvRdmaWithImm, imm⟩]
          landed := dst.landed + 1 })
      else none
  | _, _ => none

/-! ### The programs -/

/-- One operation of a program, and what it does. -/
def act {St α : Type} (advance : St → Event → St) (c : Config iface (PeerView St) α) (e : End)
    (cm : CmState) (choice : PeerView.Choice) :
    Option (Config iface (PeerView St) α × End × CmState) :=
  match c.prog with
  | .ret _ => none
  | .vis op k =>
    (PeerView.handler advance op c.world choice).bind fun (r, v) =>
    (e.after op r).bind fun e' => (cm.after op r).map fun cm' => (⟨v, k r⟩, e', cm')

theorem act_eq_some {St α : Type} {advance : St → Event → St} {c : Config iface (PeerView St) α}
    {e : End} {cm : CmState} {choice : PeerView.Choice}
    {out : Config iface (PeerView St) α × End × CmState}
    (h : act advance c e cm choice = some out) :
    ∃ op k r v e' cm', c.prog = .vis op k ∧
      PeerView.handler advance op c.world choice = some (r, v) ∧ e.after op r = some e' ∧
      cm.after op r = some cm' ∧ out = (⟨v, k r⟩, e', cm') := by
  unfold act at h
  split at h
  · cases h
  next op k hprog =>
    obtain ⟨⟨r, v⟩, hv, h⟩ := Option.bind_eq_some_iff.mp h
    obtain ⟨e', he, h⟩ := Option.bind_eq_some_iff.mp h
    obtain ⟨cm', hcm, rfl⟩ := Option.map_eq_some_iff.mp h
    exact ⟨op, k, r, v, e', cm', hprog, hv, he, hcm, rfl⟩

/-- What `accept` returns. -/
abbrev AcceptResult := Connection × (IbvMr × MemBuffer) × LocalGpuBuffers

/-- What `connect` returns. -/
abbrev ConnectResult := Connection × (IbvMr × MemBuffer) × LocalGpuBuffers × HashMap Connection

/-- The two programs and the connection. -/
structure Handshake where
  /-- The server's task. -/
  server : Config iface AcceptView (Except TransportErrors AcceptResult)
  /-- The client's call. -/
  client : Config iface ConnectView (Except TransportErrors ConnectResult)
  /-- The server's side. -/
  serverEnd : End
  /-- The client's side. -/
  clientEnd : End
  /-- The connection manager. -/
  cm : CmState

namespace Handshake

/-- Who moves. -/
inductive Label
  /-- The server performs its next operation. -/
  | server (choice : PeerView.Choice)
  /-- The client performs its next operation, which does not read the page. -/
  | client (choice : PeerView.Choice)
  /-- The client reads its page. -/
  | read
  /-- A message lands at the server. -/
  | toServer
  /-- A message lands at the client. -/
  | toClient
  /-- A receive of the client is flushed. -/
  | flush (status : UInt32)

/-- Before the first operation of either side. -/
def init (serverOrdinal : Int) (serverBufs : List GPUMemBuffer) (clientOrdinal : Int)
    (clientBufs : List GPUMemBuffer) (serverEnd clientEnd : End) : Handshake where
  server := ⟨.init .start, (Server.acceptTask serverOrdinal serverBufs).run⟩
  client := ⟨.init .start, (Client.connect clientOrdinal clientBufs).run⟩
  serverEnd := serverEnd
  clientEnd := clientEnd
  cm := ⟨false, false⟩

variable (s : Handshake)

/-- The steps. -/
def step : Label → Option Handshake
  | .server choice => (act AcceptStage.advance s.server s.serverEnd s.cm choice).map
      fun (c, e, cm) => { s with server := c, serverEnd := e, cm := cm }
  | .client choice => (act ConnectStage.advance s.client s.clientEnd s.cm choice).map
      fun (c, e, cm) => { s with client := c, clientEnd := e, cm := cm }
  | .read => (Handler.step ConnectView.handler s.client (.page s.clientEnd.page)).map
      fun c => { s with client := c }
  | .toServer => (land s.clientEnd s.serverEnd s.server.world.grants).map
      fun (src, dst) => { s with clientEnd := src, serverEnd := dst }
  | .toClient => (land s.serverEnd s.clientEnd s.client.world.grants).map
      fun (src, dst) => { s with serverEnd := src, clientEnd := dst }
  | .flush status =>
    if s.cm.disconnected then (s.clientEnd.flush status).map fun e => { s with clientEnd := e }
    else none

/-! ### Being blocked -/

/-- A message can land, or a receive be flushed. -/
def InFlight : Prop :=
  (s.step .toServer).isSome ∨ (s.step .toClient).isSome ∨ ∃ status, (s.step (.flush status)).isSome

/-- The server polls a completion queue that is empty. -/
def ServerBlocked : Prop :=
  ∃ cq, s.server.prog.next? = some (.ibvPollCq cq) ∧ s.serverEnd.cq cq = []

/-- The client polls a completion queue that is empty. -/
def ClientBlocked : Prop :=
  ∃ cq, s.client.prog.next? = some (.ibvPollCq cq) ∧ s.clientEnd.cq cq = []

end Handshake

end RdmaTransport
