import RdmaTransport.Vllm.ClientRule
import RdmaTransport.Vllm.ServerThread

/-!
# The two ends and what is between them

A connected client and server, run together: the worker, the connection's handler, and the reliable
connection that carries the client's work requests. The page on either side is the one the handshake
told the other side about, so a write with immediate copies the client's page to the server's.

## The connection

Work requests are carried out one at a time, in the order in which they were posted. The bytes of a
write with immediate land in order and in any number of segments: all but the last whenever the
connection likes, the last one, which brings the immediate, only when a receive is posted. It
consumes the receive, and only then has the request ended. A request may also fail at any time. The
client is handed a completion only for a request that has ended.

## Main definitions

* `Wire` — the connection and the two pages
* `Sys`, `Sys.step` — the whole system and its steps
* `Sys.unread` — the server has been notified and has not read its page yet

## Main results

* `Sys.step_client`, `Sys.step_server` — what a step of either program consists of
-/

namespace RdmaTransport

open Interaction

/-! ### The connection -/

/-- A work request of the client. -/
structure Flight where
  /-- The request. -/
  wr : IbvSendWr
  /-- How many of its bytes have landed. -/
  placed : ℕ
  /-- How it ended. -/
  status : Option UInt32

/-- The two pages and what is between them. -/
structure Wire where
  /-- The client's page. -/
  clientPage : Page
  /-- The server's page. -/
  serverPage : Page
  /-- The client's requests, oldest first, until their completions have been polled. -/
  sq : List Flight
  /-- How many receives the server has posted. -/
  recvs : ℕ
  /-- The completions of consumed receives, oldest first, until they have been polled. -/
  recvCq : List IbvWc

namespace Wire

variable (w : Wire)

/-- The oldest request that has not ended, with those before and after it. -/
def oldest : List Flight → Option (List Flight × Flight × List Flight)
  | [] => none
  | f :: fs =>
    match f.status with
    | none => some ([], f, fs)
    | some _ => (oldest fs).map fun (before, g, after) => (f :: before, g, after)

/-- The next `n` bytes of a write with immediate land. They are not its last. -/
def place (n : ℕ) : Option Wire :=
  match oldest w.sq with
  | some (before, f, after) =>
    if f.wr.opcode = .rdmaWriteWithImm ∧ f.placed + n < cpuBufferBaseSize then
      some { w with
        serverPage := w.serverPage.place w.clientPage f.placed n
        sq := before ++ { f with placed := f.placed + n } :: after }
    else none
  | none => none

/-- A request is carried out. A write with immediate lands what is left of it and needs a
receive. -/
def finish : Option Wire :=
  match oldest w.sq with
  | some (before, f, after) =>
    let sq := before ++ { f with status := some ibvWcSuccess } :: after
    if f.wr.opcode = .rdmaWriteWithImm then
      match w.recvs with
      | recvs + 1 =>
        some { w with
          serverPage :=
            w.serverPage.place w.clientPage f.placed (cpuBufferBaseSize - f.placed)
          sq := sq
          recvs := recvs
          recvCq := w.recvCq ++ [⟨ibvWcSuccess, ibvWcRecvRdmaWithImm, f.wr.immData⟩] }
      | 0 => none
    else some { w with sq := sq }
  | none => none

/-- A request fails. -/
def fail (status : UInt32) : Option Wire :=
  match oldest w.sq with
  | some (before, f, after) =>
    if status = ibvWcSuccess then none
    else some { w with sq := before ++ { f with status := some status } :: after }
  | none => none

/-- What an operation of the client does. -/
def client : Op → ClientView.Choice → Option Wire
  | .writePage _ bytes, .go => some { w with clientPage := w.clientPage.write bytes }
  | .ibvPostSend wr, .ret r =>
    some (if r.isOk then { w with sq := w.sq ++ [⟨wr, 0, none⟩] } else w)
  | .ibvPollCq .send, .polled (.entry wc) =>
    match w.sq with
    | f :: rest => if f.status = some wc.status then some { w with sq := rest } else none
    | [] => none
  | _, _ => some w

/-- What an operation of the server does. Reading the page is a step of its own. -/
def server : Op → ServerView.Choice → Option Wire
  | .ibvPostRecv _, .ret r => some (if r.isOk then { w with recvs := w.recvs + 1 } else w)
  | .ibvPollCq .recv, .polled (.entry wc) =>
    match w.recvCq with
    | wc' :: rest => if wc = wc' then some { w with recvCq := rest } else none
    | [] => none
  | .readPage _, _ => none
  | _, _ => some w

end Wire

/-! ### The system -/

/-- The worker, the handler, and what is between them. -/
structure Sys where
  /-- The worker. -/
  client : Config iface ClientView (Option Unit)
  /-- The handler. -/
  server : Config iface ServerView (Option Unit)
  /-- The connection. -/
  wire : Wire

namespace Sys

/-- Who moves. -/
inductive Label
  /-- The worker performs its next operation. -/
  | client (choice : ClientView.Choice)
  /-- The handler performs its next operation, which does not read the page. -/
  | server (choice : ServerView.Choice)
  /-- The handler reads its page. -/
  | read
  /-- The next bytes of a write with immediate land, but not its last. -/
  | place (n : ℕ)
  /-- A request is carried out. -/
  | finish
  /-- A request fails. -/
  | fail (status : UInt32)

/-- The worker with its queue and the handler, both before their first operation. -/
def init (s : Session) (cmds : List Command) (n : ℕ) (cpuMr : IbvMr) (cpuBuffer : MemBuffer)
    (m : ℕ) (clientPage serverPage : Page) : Sys where
  client := ⟨.init cmds, Client.worker s n⟩
  server := ⟨.init, Server.handler cpuMr cpuBuffer m⟩
  wire := ⟨clientPage, serverPage, [], 0, []⟩

variable (s : Sys)

/-- The steps. -/
def step : Label → Option Sys
  | .client choice => do
    let op ← s.client.prog.next?
    let wire ← s.wire.client op choice
    let client ← Handler.step ClientView.handler s.client choice
    some { s with client := client, wire := wire }
  | .server choice => do
    let op ← s.server.prog.next?
    let wire ← s.wire.server op choice
    let server ← Handler.step ServerView.handler s.server choice
    some { s with server := server, wire := wire }
  | .read => (Handler.step ServerView.handler s.server (.page s.wire.serverPage)).map
      fun server => { s with server := server }
  | .place n => (s.wire.place n).map fun wire => { s with wire := wire }
  | .finish => s.wire.finish.map fun wire => { s with wire := wire }
  | .fail status => (s.wire.fail status).map fun wire => { s with wire := wire }

/-- The notifications the server has decoded. -/
def decoded : List Notification := s.server.world.decoded

/-- The notifications the client has put into its page. -/
def wrote : List Notification := s.client.world.wrote

/-- The server has been notified and has not read its page yet. -/
def unread : Bool :=
  !s.wire.recvCq.isEmpty ||
    match s.server.world.stage with
    | .polled _ => true
    | _ => false

variable {s} {s' : Sys}

/-! ### What a step consists of -/

theorem step_client {choice : ClientView.Choice} (h : s.step (.client choice) = some s') :
    ∃ op k r v' wire, s.client.prog = .vis op k ∧
      ClientView.handler op s.client.world choice = some (r, v') ∧
      s.wire.client op choice = some wire ∧
      s' = { s with client := ⟨v', k r⟩, wire := wire } := by
  simp only [step, Option.bind_eq_bind, Option.bind_eq_some_iff] at h
  obtain ⟨op, hop, wire, hwire, client, hclient, hs'⟩ := h
  cases hprog : s.client.prog with
  | ret a => rw [hprog] at hop; cases hop
  | vis op' k =>
    rw [hprog] at hop
    cases hop
    rw [Handler.step, hprog] at hclient
    obtain ⟨⟨r, v'⟩, hr, rfl⟩ := Option.map_eq_some_iff.mp hclient
    exact ⟨op, k, r, v', wire, rfl, hr, hwire, (Option.some.inj hs').symm⟩

theorem step_server {choice : ServerView.Choice} (h : s.step (.server choice) = some s') :
    ∃ op k r v' wire, s.server.prog = .vis op k ∧
      ServerView.handler op s.server.world choice = some (r, v') ∧
      s.wire.server op choice = some wire ∧
      s' = { s with server := ⟨v', k r⟩, wire := wire } := by
  simp only [step, Option.bind_eq_bind, Option.bind_eq_some_iff] at h
  obtain ⟨op, hop, wire, hwire, server, hserver, hs'⟩ := h
  cases hprog : s.server.prog with
  | ret a => rw [hprog] at hop; cases hop
  | vis op' k =>
    rw [hprog] at hop
    cases hop
    rw [Handler.step, hprog] at hserver
    obtain ⟨⟨r, v'⟩, hr, rfl⟩ := Option.map_eq_some_iff.mp hserver
    exact ⟨op, k, r, v', wire, rfl, hr, hwire, (Option.some.inj hs').symm⟩

theorem step_read (h : s.step .read = some s') :
    ∃ buf k, s.server.prog = .vis (.readPage buf) k ∧
      s' = { s with
        server := ⟨s.server.world.sawPage s.wire.serverPage, k s.wire.serverPage⟩ } := by
  obtain ⟨server, hserver, rfl⟩ := Option.map_eq_some_iff.mp h
  cases hprog : s.server.prog with
  | ret a => rw [Handler.step, hprog] at hserver; cases hserver
  | vis op k =>
    rw [Handler.step, hprog] at hserver
    obtain ⟨⟨r, v'⟩, hr, rfl⟩ := Option.map_eq_some_iff.mp hserver
    cases op with
    | readPage buf => cases hr; exact ⟨buf, k, rfl, rfl⟩
    | ibvPollCq cq => cases cq <;> cases hr
    | _ => cases hr

end Sys

end RdmaTransport
