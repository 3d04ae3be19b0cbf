/-!
# Errors

The error types of the three crates. `TransportErrors.opsFailed` names the operation and carries
a message; the other two wrap what the layers below report.
-/

namespace RdmaTransport

/-- The errors of `rdma-core`. -/
inductive RdmaErrors
  /-- `ops {0} failed with errorno: {1}`. -/
  | opsFailed (name : String) (errno : Int)
  /-- `operation not found: {0}`. -/
  | opsNotFound (name : String)
  deriving DecidableEq, Repr

/-- The errors of `cuda`. -/
inductive CudaErrors
  /-- `ops {0} failed with errorno: {1}`. -/
  | opsFailed (name : String) (code : UInt32)
  deriving DecidableEq, Repr

/-- The errors of `rdma-transport`. -/
inductive TransportErrors
  /-- `Rdma error: {0}`. -/
  | rdmaErrors (e : RdmaErrors)
  /-- `Cuda error: {0}`. -/
  | cudaErrors (e : CudaErrors)
  /-- `ops {0} failed with msg {1}`. -/
  | opsFailed (op msg : String)
  deriving DecidableEq, Repr

end RdmaTransport
