import RdmaTransport.Internal.Books
import RdmaTransport.Internal.Codec
import RdmaTransport.Internal.Exchange
import RdmaTransport.Internal.Feed
import RdmaTransport.Internal.Footprint
import RdmaTransport.Internal.InsertAll
import RdmaTransport.Internal.Leads
import RdmaTransport.Internal.Memory
import RdmaTransport.Internal.Pool
import RdmaTransport.Internal.Program
import RdmaTransport.Internal.Run
import RdmaTransport.Internal.Sessions
import RdmaTransport.Internal.Window
import RdmaTransport.Errors
import RdmaTransport.Buffer
import RdmaTransport.Wire
import RdmaTransport.Interface
import RdmaTransport.Fallible
import RdmaTransport.Verbs
import RdmaTransport.Rdma
import RdmaTransport.Reading
import RdmaTransport.FirstFailure
import RdmaTransport.Vllm.TensorBlock
import RdmaTransport.Vllm.CompletionReqs
import RdmaTransport.Vllm.Client
import RdmaTransport.Vllm.Server
import RdmaTransport.Footprints
import RdmaTransport.Depth
import RdmaTransport.Registration
import RdmaTransport.OwnRequests
import RdmaTransport.Vllm.HandlerControl
import RdmaTransport.Vllm.Sequential
import RdmaTransport.Vllm.Listen
import RdmaTransport.Vllm.SharedTable
import RdmaTransport.Vllm.ServerProcess
import RdmaTransport.Vllm.Resources
import RdmaTransport.Slots
import RdmaTransport.Fabric
import RdmaTransport.Vllm.Worker
import RdmaTransport.Vllm.WorkerRefines
import RdmaTransport.Vllm.Calls
import RdmaTransport.Vllm.BadCommand
import RdmaTransport.Vllm.Confined
import RdmaTransport.Vllm.ClientThread
import RdmaTransport.Vllm.ServerThread
import RdmaTransport.Vllm.ClientRule
import RdmaTransport.Vllm.WorkerTrace
import RdmaTransport.Vllm.ClientProcess
import RdmaTransport.Vllm.Link
import RdmaTransport.Vllm.Ends
import RdmaTransport.Vllm.Delivery
import RdmaTransport.Vllm.Tables
import RdmaTransport.Vllm.Rest
import RdmaTransport.Handshake.Peer
import RdmaTransport.Handshake.Accept
import RdmaTransport.Handshake.Connect
import RdmaTransport.Handshake.World
import RdmaTransport.Handshake.ServerSide
import RdmaTransport.Handshake.ClientSide
import RdmaTransport.Handshake.Agreement
import RdmaTransport.Handshake.BufferOrder
import RdmaTransport.Handshake.Effects
import RdmaTransport.Handshake.Registered
import RdmaTransport.Handshake.Completes
import RdmaTransport.Handshake.Running
import RdmaTransport.Handshake.Finish
import RdmaTransport.ControlPath
import RdmaTransport.EndToEnd
import RdmaTransport.Lifetime
