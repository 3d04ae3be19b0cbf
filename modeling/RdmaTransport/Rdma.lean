import RdmaTransport.Verbs

/-!
# The transport layer

`rdma-transport`: the operations on a connection, and the two halves of its handshake. Every
operation that posts a send work request polls the send completion queue once, right after, and
compares nothing but the status; `pollComp` is that shared tail.

Registration is one loop over the buffers on either side. The server's also collects the
connections it will offer, so the loop is `registerLoop` with the body's bookkeeping as a
parameter.

## Main definitions

* `writeMetadata`, `write`, `read` — the operations
* `Server.accept`, `Server.handleNotification`, `Server.disconnect`
* `Client.connect`, `Client.disconnect`
-/

namespace RdmaTransport

open Interaction

/-- `ibv_poll_cq(cq, 1, &mut wc)?` and the test of `wc.status` that follows it. -/
def pollComp (cq : Cq) (op what : String) : Fallible IbvWc := do
  let wc ← ibvPollCq cq
  if wc.status ≠ ibvWcSuccess then
    .fail (.opsFailed op s!"{what} failed with status: {wc.status}")
  else
    pure wc

/-! ### Operations on a connection -/

/-- `write_metadata`: the page of slot `offset` goes to the same slot of the peer, with the slot
and the size packed into the immediate. -/
def writeMetadata (conn : Connection) (cpuMr : IbvMr) (cpuBuffer : MemBuffer)
    (offset size : UInt16) : Fallible Unit := do
  let immData := (offset.toUInt32 <<< 16) + size.toUInt32
  let addr ← Task.addU64 cpuBuffer.ptr (offset.toUInt64 * UInt64.ofNat cpuBufferBaseSize)
  let remoteAddr ← Task.addU64 conn.basePtr (offset.toUInt64 * UInt64.ofNat cpuBufferBaseSize)
  rdmaPostWriteWithOpcode addr cpuBufferBaseSize (some cpuMr) ibvSendSignaled remoteAddr
    conn.mrRkey .rdmaWriteWithImm immData
  let _ ← pollComp .send "write_metadata" "poll_write_comp"
  pure ()

/-- `write`. -/
def write (conn : Connection) (mr : IbvMr) (localBufferAddr remoteBufferAddr : UInt64)
    (size : UInt32) : Fallible Unit := do
  rdmaPostWrite localBufferAddr size.toNat (some mr) ibvSendSignaled remoteBufferAddr conn.mrRkey
  let _ ← pollComp .send "write" "poll_write_comp"
  pure ()

/-- `read`. -/
def read (conn : Connection) (mr : IbvMr) (localBufferAddr remoteBufferAddr : UInt64)
    (size : UInt32) : Fallible Unit := do
  rdmaPostRead localBufferAddr size.toNat (some mr) ibvSendSignaled remoteBufferAddr conn.mrRkey
  let _ ← pollComp .send "read" "poll_read_comp"
  pure ()

/-! ### One post, one poll -/

/-- What the tail of an operation makes of the answer of `poll_cq`. -/
def compResult (op what : String) : PollRet → Except TransportErrors IbvWc
  | .notFound => .error (.rdmaErrors (.opsNotFound "ibv_poll_cq"))
  | .negative code => .error (.rdmaErrors (.opsFailed "ibv_poll_cq" code))
  | .entry wc =>
    if wc.status ≠ ibvWcSuccess then
      .error (.opsFailed op s!"{what} failed with status: {wc.status}")
    else .ok wc

theorem compResult_entry_of_success {op what : String} {wc : IbvWc} (h : wc.status = ibvWcSuccess) :
    compResult op what (.entry wc) = .ok wc := if_neg (not_not_intro h)

theorem compResult_entry_of_failed (op what : String) {wc : IbvWc}
    (h : wc.status ≠ ibvWcSuccess) : ∃ e, compResult op what (.entry wc) = .error e := ⟨_, if_pos h⟩

theorem run_pollComp (cq : Cq) (op what : String) :
    (pollComp cq op what).run = .call (.ibvPollCq cq) fun r => .ret (compResult op what r) := by
  refine congrArg (Prog.vis (S := iface) (.ibvPollCq cq)) (funext fun r => ?_)
  cases r with
  | entry wc =>
    change ite (wc.status ≠ ibvWcSuccess) (Fallible.fail _) (Fallible.ofExcept (.ok wc)) =
      Prog.ret (ite (wc.status ≠ ibvWcSuccess) _ (.ok wc))
    split <;> rfl
  | _ => rfl

theorem run_ibvPostSend (wr : IbvSendWr) :
    (ibvPostSend wr).run =
      .call (.ibvPostSend wr) fun r => .ret (rdmaCall "ibv_post_send" r) := rfl

theorem run_ibvPostRecv (wr : IbvRecvWr) :
    (ibvPostRecv wr).run =
      .call (.ibvPostRecv wr) fun r => .ret (rdmaCall "ibv_post_recv" r) := rfl

/-- Post a work request, then poll its completion. -/
def postAndPoll (wr : IbvSendWr) (op what : String) : Fallible Unit := do
  ibvPostSend wr
  let _ ← pollComp .send op what
  pure ()

theorem run_postAndPoll (wr : IbvSendWr) (op what : String) :
    (postAndPoll wr op what).run =
      .call (.ibvPostSend wr) fun r =>
        match rdmaCall "ibv_post_send" r with
        | .ok _ => .call (.ibvPollCq .send) fun p => .ret ((compResult op what p).map fun _ => ())
        | .error e => .ret (.error e) := by
  simp only [postAndPoll, Fallible.bind_eq, Fallible.run_andThen, run_ibvPostSend, run_pollComp,
    Prog.vis_bind, Prog.ret_bind]
  refine congrArg (Prog.vis (S := iface) (.ibvPostSend wr)) (funext fun r => ?_)
  cases rdmaCall "ibv_post_send" r with
  | error e => rfl
  | ok _ =>
    refine congrArg (Prog.vis (S := iface) (.ibvPollCq .send)) (funext fun p => ?_)
    cases compResult op what p <;> rfl

/-- **One post, one poll**, in any environment: a refused post is an error, and an accepted one is
polled. -/
theorem always_postThenPoll {σ C : Type} {h : Handler iface σ C} {I : Op → σ → Prop}
    {Q : Except TransportErrors Unit → σ → Prop} {s : σ} {wr : IbvSendWr} {op what : String}
    (hpost : I (.ibvPostSend wr) s)
    (hrefused : ∀ choice r s', h (.ibvPostSend wr) s choice = some (r, s') →
      CRet.isOk r = false → ∀ e, Q (.error e) s')
    (haccepted : ∀ choice r s', h (.ibvPostSend wr) s choice = some (r, s') →
      CRet.isOk r = true → h.Always I Q
        (Task.call (.ibvPollCq .send) fun p => .ret ((compResult op what p).map fun _ => ())) s') :
    h.Always I Q (postAndPoll wr op what).run s := by
  rw [run_postAndPoll]
  refine ⟨hpost, ?_⟩
  intro choice r s' hr
  cases hok : CRet.isOk r with
  | false =>
    obtain ⟨e, he⟩ := rdmaCall_of_not_isOk "ibv_post_send" hok
    simp only [he]
    exact hrefused choice r s' hr hok e
  | true =>
    simp only [rdmaCall_of_isOk hok]
    exact haccepted choice r s' hr hok

/-- The work request of `write_metadata` at slot `0`. -/
def metadataWr (conn : Connection) (cpuMr : IbvMr) (cpuBuffer : MemBuffer) (size : UInt16) :
    IbvSendWr :=
  ⟨⟨cpuBuffer.ptr, UInt32.ofNat cpuBufferBaseSize, cpuMr.lkey⟩, .rdmaWriteWithImm, ibvSendSignaled,
    conn.basePtr, conn.mrRkey, htonl size.toUInt32⟩

theorem writeMetadata_zero (conn : Connection) (cpuMr : IbvMr) (cpuBuffer : MemBuffer)
    (size : UInt16) :
    writeMetadata conn cpuMr cpuBuffer 0 size =
      postAndPoll (metadataWr conn cpuMr cpuBuffer size) "write_metadata" "poll_write_comp" := by
  have hzero : (0 : UInt16).toUInt64 * UInt64.ofNat cpuBufferBaseSize = 0 := rfl
  have himm : ((0 : UInt16).toUInt32 <<< 16) + size.toUInt32 = size.toUInt32 := by
    rw [show (0 : UInt16).toUInt32 <<< 16 = 0 from rfl, UInt32.zero_add]
  simp only [writeMetadata, hzero, himm, Task.addU64_zero]
  rfl

theorem run_writeMetadata (conn : Connection) (cpuMr : IbvMr) (cpuBuffer : MemBuffer)
    (offset size : UInt16) :
    (writeMetadata conn cpuMr cpuBuffer offset size).run =
      (Task.addU64 cpuBuffer.ptr (offset.toUInt64 * UInt64.ofNat cpuBufferBaseSize)).bind
        fun addr =>
      (Task.addU64 conn.basePtr (offset.toUInt64 * UInt64.ofNat cpuBufferBaseSize)).bind
        fun remoteAddr =>
      (postAndPoll ⟨⟨addr, UInt32.ofNat cpuBufferBaseSize, cpuMr.lkey⟩, .rdmaWriteWithImm,
        ibvSendSignaled, remoteAddr, conn.mrRkey,
        htonl ((offset.toUInt32 <<< 16) + size.toUInt32)⟩ "write_metadata"
        "poll_write_comp").run := by
  simp only [writeMetadata, Fallible.bind_eq, Fallible.run_andThen, liftM, monadLift,
    MonadLift.monadLift, Fallible.run_lift, Prog.bind_assoc, Prog.ret_bind]
  rfl

/-- The work request of `write`. -/
def writeWr (conn : Connection) (mr : IbvMr) (localBufferAddr remoteBufferAddr : UInt64)
    (size : UInt32) : IbvSendWr :=
  ⟨⟨localBufferAddr, UInt32.ofNat size.toNat, mr.lkey⟩, .rdmaWrite, ibvSendSignaled,
    remoteBufferAddr, conn.mrRkey, 0⟩

/-- The work request of `read`. -/
def readWr (conn : Connection) (mr : IbvMr) (localBufferAddr remoteBufferAddr : UInt64)
    (size : UInt32) : IbvSendWr :=
  ⟨⟨localBufferAddr, UInt32.ofNat size.toNat, mr.lkey⟩, .rdmaRead, ibvSendSignaled,
    remoteBufferAddr, conn.mrRkey, 0⟩

theorem write_eq (conn : Connection) (mr : IbvMr) (localBufferAddr remoteBufferAddr : UInt64)
    (size : UInt32) : write conn mr localBufferAddr remoteBufferAddr size =
      postAndPoll (writeWr conn mr localBufferAddr remoteBufferAddr size) "write"
        "poll_write_comp" := rfl

theorem read_eq (conn : Connection) (mr : IbvMr) (localBufferAddr remoteBufferAddr : UInt64)
    (size : UInt32) : read conn mr localBufferAddr remoteBufferAddr size =
      postAndPoll (readWr conn mr localBufferAddr remoteBufferAddr size) "read"
        "poll_read_comp" := rfl

/-! ### Pages -/

/-- What bincode says when a page is too short for a value. -/
def writeZeroMsg : String := "io error: failed to write whole buffer"

/-- What bincode says of bytes it cannot read. -/
def decodeErrorMsg : DecodeError → String
  | .eof => "io error: unexpected end of file"
  | .invalidTag tag => s!"tag for enum is not valid, found {tag}"

/-- `bincode::serialize_into` at the start of a page. What fits is written even when the rest
does not. -/
def serializeInto (cpuBuffer : MemBuffer) (bytes : List UInt8) : Task (Except String Unit) := do
  Task.perform (.writePage cpuBuffer bytes)
  if bytes.length ≤ cpuBufferBaseSize then pure (.ok ()) else pure (.error writeZeroMsg)

/-- `.map_err(|e| TransportErrors::OpsFailed(op, e.to_string()))`. -/
def mapErr {α : Type} (op : String) : Except String α → Except TransportErrors α
  | .ok a => .ok a
  | .error e => .error (.opsFailed op e)

/-- How a slice expression with an end past the page panics. -/
def sliceMsg (size : ℕ) : String :=
  s!"range end index {size} out of range for slice of length {cpuBufferBaseSize}"

/-- `&cpu_buffer[0..size]`. -/
def slicePage (cpuBuffer : MemBuffer) (size : ℕ) : Task (List UInt8) := do
  let page ← Task.perform (.readPage cpuBuffer)
  if h : size ≤ cpuBufferBaseSize then pure (Page.slice page size h)
  else Task.panic (sliceMsg size)

/-! ### Setting up a connection -/

/-- The access flags of every registration. -/
def mrAccess : UInt32 := ibvAccessLocalWrite ||| ibvAccessRemoteWrite ||| ibvAccessRemoteRead

/-- The access flags both sides set on their queue pair. -/
def qpAccess : UInt32 := ibvAccessRemoteRead ||| ibvAccessRemoteWrite

/-- `cuda_call!`. -/
def cudaCall (name : String) (code : UInt32) : Except TransportErrors Unit :=
  if code = 0 then .ok () else .error (.cudaErrors (.opsFailed name code))

/-- `cuda_device_primary_ctx_retain`. -/
def cudaDevicePrimaryCtxRetain (gpuOrdinal : Int) : Fallible Unit := do
  let code ← Task.perform (.cuDeviceGet gpuOrdinal)
  Fallible.ofExcept (cudaCall "cuDeviceGet" code)
  let code ← Task.perform .cuDevicePrimaryCtxRetain
  .ofExcept (cudaCall "cuDevicePrimaryCtxRetain" code)

/-- `cuda_device_primary_ctx_release`. -/
def cudaDevicePrimaryCtxRelease (gpuOrdinal : Int) : Fallible Unit := do
  let code ← Task.perform (.cuDeviceGet gpuOrdinal)
  Fallible.ofExcept (cudaCall "cuDeviceGet" code)
  let code ← Task.perform .cuDevicePrimaryCtxRelease
  .ofExcept (cudaCall "cuDevicePrimaryCtxRelease_v2" code)

/-- `cuda_set_current_ctx`. -/
def cudaSetCurrentCtx : Fallible Unit := do
  let code ← Task.perform .cuCtxSetCurrent
  .ofExcept (cudaCall "cuCtxSetCurrent" code)

/-- What one side of a connection keeps of its registered GPU buffers. -/
abbrev LocalGpuBuffers := HashMap (IbvMr × GPUMemBuffer)

/-- `for mut buffer in gpu_buffers.into_iter()`: register the buffer, then the bookkeeping of the
loop body. -/
def registerLoop {β : Type} (body : β → IbvMr → GPUMemBuffer → β) :
    List GPUMemBuffer → β → Fallible β
  | [], acc => pure acc
  | buffer :: rest, acc => do
    let gpuMr ← ibvRegMr buffer.basePtr buffer.size mrAccess
    registerLoop body rest (body acc gpuMr buffer)

namespace Server

/-- The body of the server's registration loop. -/
def offer (acc : Connections × LocalGpuBuffers) (gpuMr : IbvMr) (buffer : GPUMemBuffer) :
    Connections × LocalGpuBuffers :=
  (acc.1.add ⟨buffer.basePtr, gpuMr.rkey⟩, acc.2.insert buffer.basePtr (gpuMr, buffer))

/-- `establish_conn`: receive the client's page, then send one's own. -/
def establishConn (cpuMr : IbvMr) (cpuBuffer : MemBuffer) : Fallible Connection := do
  let clientConn ← Task.perform (.letConn .zero)
  rdmaPostRecv clientConn Connection.sizeOf cpuMr
  rdmaAccept
  let _ ← pollComp .recv "accept" "poll_recv_comp"
  let serverConn ← Task.perform (.letConn ⟨cpuBuffer.ptr, cpuMr.rkey⟩)
  rdmaPostSend serverConn Connection.sizeOf (some cpuMr) ibvSendInline
  let _ ← pollComp .send "accept" "poll_send_comp"
  let conn ← Task.perform (.readConn clientConn)
  pure conn

/-- `accept`. -/
def accept (gpuOrdinal : Int) (gpuBuffers : List GPUMemBuffer) :
    Fallible (Connection × (IbvMr × MemBuffer) × LocalGpuBuffers) := do
  ibvQueryQp
  ibvModifyQp qpAccess
  let cpuBuffer ← Task.perform .newPage
  let cpuMr ← ibvRegMr cpuBuffer.ptr cpuBuffer.getSize mrAccess
  cudaDevicePrimaryCtxRetain gpuOrdinal
  cudaSetCurrentCtx
  let (conns, localGpuBufferMap) ← registerLoop offer gpuBuffers (⟨[]⟩, ∅)
  let clientConn ← establishConn cpuMr cpuBuffer
  let size := conns.serializedSize
  let written ← (serializeInto cpuBuffer conns.serialize : Task _)
  Fallible.ofExcept (mapErr "accept" written)
  rdmaPostWriteWithOpcode cpuBuffer.ptr cpuBufferBaseSize (some cpuMr) ibvSendSignaled
    clientConn.basePtr clientConn.mrRkey .rdmaWriteWithImm (UInt32.ofNat size)
  let _ ← pollComp .send "accept" "poll_write_comp"
  pure (clientConn, (cpuMr, cpuBuffer), localGpuBufferMap)

/-- `handle_notification`. The whole immediate is taken for the size. -/
def handleNotification (cpuMr : IbvMr) (cpuBuffer : MemBuffer) : Fallible Notification := do
  rdmaPostRecv cpuBuffer.ptr cpuBuffer.getSize cpuMr
  let wc ← pollComp .recv "handle_request" "poll_recv_comp"
  if wc.opcode = ibvWcRecvRdmaWithImm then
    let size := (ntohl wc.immData).toNat
    let data ← slicePage cpuBuffer size
    .ofExcept
      (mapErr "handle_notification" ((Notification.deserialize data).mapError decodeErrorMsg))
  else
    pure .zero

/-- `disconnect`. -/
def disconnect : Fallible Unit := rdmaDisconnect

/-- What `handle_notification` makes of the page once a write with immediate has completed. -/
def decodePage (page : Page) (wc : IbvWc) : Task (Except TransportErrors Notification) :=
  if h : (ntohl wc.immData).toNat ≤ cpuBufferBaseSize then
    .ret (mapErr "handle_notification"
      ((Notification.deserialize (page.slice (ntohl wc.immData).toNat h)).mapError decodeErrorMsg))
  else
    Task.panic (sliceMsg (ntohl wc.immData).toNat)

theorem run_handleNotification (cpuMr : IbvMr) (cpuBuffer : MemBuffer) :
    (handleNotification cpuMr cpuBuffer).run =
      .call (.ibvPostRecv ⟨⟨cpuBuffer.ptr, UInt32.ofNat cpuBuffer.getSize, cpuMr.lkey⟩⟩) fun r =>
        match rdmaCall "ibv_post_recv" r with
        | .error e => .ret (.error e)
        | .ok _ => .call (.ibvPollCq .recv) fun p =>
            match compResult "handle_request" "poll_recv_comp" p with
            | .error e => .ret (.error e)
            | .ok wc =>
              if wc.opcode = ibvWcRecvRdmaWithImm then
                .call (.readPage cpuBuffer) fun page => decodePage page wc
              else .ret (.ok .zero) := by
  simp only [handleNotification, rdmaPostRecv, Fallible.bind_eq, Fallible.run_andThen,
    run_ibvPostRecv, run_pollComp, Prog.vis_bind, Prog.ret_bind]
  refine congrArg (Prog.vis (S := iface) _) (funext fun r => ?_)
  cases rdmaCall "ibv_post_recv" r with
  | error e => rfl
  | ok _ =>
    refine congrArg (Prog.vis (S := iface) _) (funext fun p => ?_)
    cases compResult "handle_request" "poll_recv_comp" p with
    | error e => rfl
    | ok wc =>
      by_cases hop : wc.opcode = ibvWcRecvRdmaWithImm
      · simp only [hop, if_true]
        refine congrArg (Prog.vis (S := iface) _) (funext fun page => ?_)
        simp only [decodePage]
        split
        · rfl
        · simp only [Prog.ret_bind, Task.panic_bind]
      · simp only [hop, if_false]
        rfl

end Server

namespace Client

/-- The body of the client's registration loop. -/
def keep (acc : LocalGpuBuffers) (gpuMr : IbvMr) (buffer : GPUMemBuffer) : LocalGpuBuffers :=
  acc.insert buffer.basePtr (gpuMr, buffer)

/-- `establish_conn`: send one's own page, then receive the server's. -/
def establishConn (cpuMr : IbvMr) (cpuBuffer : MemBuffer) : Fallible Connection := do
  let serverConn ← Task.perform (.letConn .zero)
  rdmaPostRecv serverConn Connection.sizeOf cpuMr
  rdmaConnect
  let clientConn ← Task.perform (.letConn ⟨cpuBuffer.ptr, cpuMr.rkey⟩)
  rdmaPostSend clientConn Connection.sizeOf none ibvSendInline
  let _ ← pollComp .send "establish_conn" "poll_send_comp"
  let _ ← pollComp .recv "establish_conn" "poll_recv_comp"
  let conn ← Task.perform (.readConn serverConn)
  pure conn

/-- The remote map: one entry for each connection the server offers, a later one of the same base
pointer replacing an earlier one. -/
def remoteMap (conns : List Connection) : HashMap Connection :=
  conns.foldl (fun acc conn => acc.insert conn.basePtr conn) ∅

/-- `connect`. -/
def connect (gpuOrdinal : Int) (gpuBuffers : List GPUMemBuffer) :
    Fallible (Connection × (IbvMr × MemBuffer) × LocalGpuBuffers × HashMap Connection) := do
  ibvModifyQp qpAccess
  let cpuBuffer ← Task.perform .newPage
  let cpuMr ← ibvRegMr cpuBuffer.ptr cpuBuffer.getSize mrAccess
  cudaDevicePrimaryCtxRetain gpuOrdinal
  cudaSetCurrentCtx
  let localGpuBufferMap ← registerLoop keep gpuBuffers ∅
  let serverConn ← establishConn cpuMr cpuBuffer
  rdmaPostRecv cpuBuffer.ptr cpuBuffer.getSize cpuMr
  let wc ← pollComp .recv "connect" "poll_recv_comp"
  if wc.opcode ≠ ibvWcRecvRdmaWithImm then
    .fail (.opsFailed "connect" "expect IBV_WR_RDMA_WRITE_WITH_IMM opcode")
  else
    let size := (ntohl wc.immData).toNat
    let data ← slicePage cpuBuffer size
    let serverGpuConns ←
      Fallible.ofExcept (mapErr "connect" ((Connections.deserialize data).mapError decodeErrorMsg))
    pure (serverConn, (cpuMr, cpuBuffer), localGpuBufferMap, remoteMap serverGpuConns.conns)

/-- `disconnect`: announce the end, then disconnect. -/
def disconnect (conn : Connection) (cpuMr : IbvMr) (cpuBuffer : MemBuffer) : Fallible Unit := do
  let notification := Notification.complete
  let size := notification.serializedSize
  let written ← (serializeInto cpuBuffer notification.serialize : Task _)
  Fallible.ofExcept (mapErr "disconnect" written)
  Task.perform (.observe (.wrote notification))
  writeMetadata conn cpuMr cpuBuffer 0 (UInt16.ofNat size)
  rdmaDisconnect

/-- The notification of `disconnect` always fits, so it is always announced. -/
theorem run_disconnect (conn : Connection) (cpuMr : IbvMr) (cpuBuffer : MemBuffer) :
    (disconnect conn cpuMr cpuBuffer).run =
      .call (.writePage cpuBuffer Notification.complete.serialize) fun _ =>
      .call (.observe (.wrote .complete)) fun _ =>
      (writeMetadata conn cpuMr cpuBuffer 0 5).run.bind fun r =>
        match r with
        | .ok _ => rdmaDisconnect.run
        | .error e => .ret (.error e) := by
  have hsize : UInt16.ofNat Notification.complete.serializedSize = 5 := by
    rw [show Notification.complete = ⟨1, none⟩ from rfl, Notification.serializedSize_none]
    rfl
  rw [← hsize]
  change Prog.vis (S := iface) _ (fun _ => Prog.vis (S := iface) _ fun _ => _) = _
  refine congrArg (Prog.vis (S := iface) _) (funext fun _ => ?_)
  refine congrArg (Prog.vis (S := iface) _) (funext fun _ => ?_)
  change ((writeMetadata conn cpuMr cpuBuffer 0
    (UInt16.ofNat Notification.complete.serializedSize)).andThen fun _ => rdmaDisconnect).run = _
  rw [Fallible.run_andThen]
  refine congrArg (Prog.bind _) (funext fun r => ?_)
  cases r <;> rfl

end Client

end RdmaTransport
