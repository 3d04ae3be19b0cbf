import RdmaTransport.Interface

/-!
# The verbs layer

`rdma-core`: the wrappers around the C calls. `rdma_call!` turns a C status into a `Result`;
`ibv_poll_cq` and the posting calls first look their operation up in the context's table.

The posting functions differ only in the opcode and in whether they carry a remote range and an
immediate, so each is `postSendWr` or `ibvPostRecv` applied to its own values.
-/

namespace RdmaTransport

open Interaction

/-- `rdma_call!`. -/
def rdmaCall (name : String) : CRet → Except TransportErrors Unit
  | .notFound => .error (.rdmaErrors (.opsNotFound name))
  | .ret code errno =>
    if code = 0 then .ok () else .error (.rdmaErrors (.opsFailed name errno))

theorem rdmaCall_of_isOk {name : String} {r : CRet} (h : r.isOk = true) :
    rdmaCall name r = .ok () := by
  cases r with
  | notFound => cases h
  | ret code errno => exact if_pos (by simpa [CRet.isOk] using h)

theorem rdmaCall_of_not_isOk (name : String) {r : CRet} (h : r.isOk = false) :
    ∃ e, rdmaCall name r = .error e := by
  cases r with
  | notFound => exact ⟨_, rfl⟩
  | ret code errno => exact ⟨_, if_neg (by simpa [CRet.isOk] using h)⟩

/-! ### `ibverbs` -/

/-- `ibv_post_send`. -/
def ibvPostSend (wr : IbvSendWr) : Fallible Unit := do
  let r ← Task.perform (.ibvPostSend wr)
  .ofExcept (rdmaCall "ibv_post_send" r)

/-- `ibv_post_recv`. -/
def ibvPostRecv (wr : IbvRecvWr) : Fallible Unit := do
  let r ← Task.perform (.ibvPostRecv wr)
  .ofExcept (rdmaCall "ibv_post_recv" r)

/-- `ibv_poll_cq`, of one entry. The loop goes round while `poll_cq` answers zero. -/
def ibvPollCq (cq : Cq) : Fallible IbvWc := do
  match ← Task.perform (.ibvPollCq cq) with
  | .notFound => .fail (.rdmaErrors (.opsNotFound "ibv_poll_cq"))
  | .negative code => .fail (.rdmaErrors (.opsFailed "ibv_poll_cq" code))
  | .entry wc => pure wc

/-- `ibv_query_qp`. -/
def ibvQueryQp : Fallible Unit := do
  let r ← Task.perform .ibvQueryQp
  .ofExcept (rdmaCall "ibv_query_qp" r)

/-- `ibv_modify_qp`. -/
def ibvModifyQp (accessFlags : UInt32) : Fallible Unit := do
  let r ← Task.perform (.ibvModifyQp accessFlags)
  .ofExcept (rdmaCall "ibv_modify_qp" r)

/-- `ibv_reg_mr`: a region over exactly the bytes of the buffer. -/
def ibvRegMr (addr : UInt64) (length : ℕ) (access : UInt32) : Fallible IbvMr := do
  match ← Task.perform (.ibvRegMr addr length access) with
  | some (lkey, rkey) => pure ⟨addr, length, lkey, rkey⟩
  | none => .fail (.rdmaErrors (.opsFailed "ibv_reg_mr" (-1)))

/-! ### The connection manager -/

/-- `rdma_accept`. -/
def rdmaAccept : Fallible Unit := do
  let r ← Task.perform .rdmaAccept
  .ofExcept (rdmaCall "rdma_accept" r)

/-- `rdma_connect`. -/
def rdmaConnect : Fallible Unit := do
  let r ← Task.perform .rdmaConnect
  .ofExcept (rdmaCall "rdma_connect" r)

/-- `rdma_disconnect`. -/
def rdmaDisconnect : Fallible Unit := do
  let r ← Task.perform .rdmaDisconnect
  .ofExcept (rdmaCall "rdma_disconnect" r)

/-! ### Posting -/

/-- `mr.map(|mr| mr.lkey).unwrap_or(0)`. -/
def lkeyOf : Option IbvMr → UInt32
  | some mr => mr.lkey
  | none => 0

/-- Post a send work request with one local range. -/
def postSendWr (sge : IbvSge) (opcode : WrOpcode) (flags : UInt32) (remoteAddr : UInt64)
    (rkey immData : UInt32) : Fallible Unit :=
  ibvPostSend ⟨sge, opcode, flags, remoteAddr, rkey, immData⟩

/-- `rdma_post_send`, `rdma_post_sendv`. -/
def rdmaPostSend (addr : UInt64) (length : ℕ) (mr : Option IbvMr) (flags : UInt32) :
    Fallible Unit :=
  postSendWr ⟨addr, UInt32.ofNat length, lkeyOf mr⟩ .send flags 0 0 0

/-- `rdma_post_recv`, `rdma_post_recvv`. -/
def rdmaPostRecv (addr : UInt64) (length : ℕ) (mr : IbvMr) : Fallible Unit :=
  ibvPostRecv ⟨⟨addr, UInt32.ofNat length, mr.lkey⟩⟩

/-- `rdma_post_write`, `rdma_post_writev`. -/
def rdmaPostWrite (addr : UInt64) (length : ℕ) (mr : Option IbvMr) (flags : UInt32)
    (remoteAddr : UInt64) (rkey : UInt32) : Fallible Unit :=
  postSendWr ⟨addr, UInt32.ofNat length, lkeyOf mr⟩ .rdmaWrite flags remoteAddr rkey 0

/-- `rdma_post_write_with_opcode`, `rdma_post_writev_with_opcode`: the immediate is set only for
the opcode that carries one. -/
def rdmaPostWriteWithOpcode (addr : UInt64) (length : ℕ) (mr : Option IbvMr) (flags : UInt32)
    (remoteAddr : UInt64) (rkey : UInt32) (opcode : WrOpcode) (immData : UInt32) :
    Fallible Unit :=
  postSendWr ⟨addr, UInt32.ofNat length, lkeyOf mr⟩ opcode flags remoteAddr rkey
    (if opcode = .rdmaWriteWithImm then htonl immData else 0)

/-- `rdma_post_read`, `rdma_post_readv`. -/
def rdmaPostRead (addr : UInt64) (length : ℕ) (mr : Option IbvMr) (flags : UInt32)
    (remoteAddr : UInt64) (rkey : UInt32) : Fallible Unit :=
  postSendWr ⟨addr, UInt32.ofNat length, lkeyOf mr⟩ .rdmaRead flags remoteAddr rkey 0

end RdmaTransport
