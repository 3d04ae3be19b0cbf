import RdmaTransport.Vllm.CompletionReqs
import RdmaTransport.Wire

/-!
# Tensor blocks and the client's commands

A `TensorBlock` names a range of GPU memory by a base pointer, an offset and a size. Two
conversions read it: registration, through `intoGPUMemBuffer`, keeps the base pointer and the size
and drops the offset; a transfer uses the base pointer *plus* the offset. A `Connection` becomes a
block of size zero at its base pointer.
-/

namespace RdmaTransport

/-- A block of a tensor. -/
structure TensorBlock where
  /-- The buffer the block lies in. -/
  basePtr : UInt64
  /-- Where in the buffer it starts. -/
  offset : UInt64
  /-- How many bytes it has. -/
  size : UInt32
  deriving DecidableEq, Repr

namespace TensorBlock

/-- `From<&Connection> for TensorBlock`. -/
def ofConnection (conn : Connection) : TensorBlock := ⟨conn.basePtr, 0, 0⟩

/-- `Into<GPUMemBuffer> for &TensorBlock`. The offset is not carried over. -/
def intoGPUMemBuffer (b : TensorBlock) : GPUMemBuffer := ⟨b.basePtr, b.size.toNat⟩

end TensorBlock

/-- `TensorBlocks`. -/
abbrev TensorBlocks := List TensorBlock

/-- What a `VllmRdmaClient` queues for its worker. -/
inductive Command
  /-- Push a local block to the server. -/
  | send (localTensorBlock remoteTensorBlock : TensorBlock)
  /-- Pull a block from the server. -/
  | recv (localTensorBlock remoteTensorBlock : TensorBlock)
  /-- Announce a request as complete. -/
  | complete (reqId : ReqId)
  /-- Close the connection. -/
  | disconnect
  deriving DecidableEq, Repr

end RdmaTransport
