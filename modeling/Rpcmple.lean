import Rpcmple.Cleanup
import Rpcmple.Codec
import Rpcmple.Cpp.Arguments
import Rpcmple.Cpp.Arrivals
import Rpcmple.Cpp.Bounds
import Rpcmple.Cpp.BufferReuse
import Rpcmple.Cpp.Bytes
import Rpcmple.Cpp.Calling
import Rpcmple.Cpp.ClientSide
import Rpcmple.Cpp.Closing
import Rpcmple.Cpp.Conversation
import Rpcmple.Cpp.DataPublisher
import Rpcmple.Cpp.DataSignature
import Rpcmple.Cpp.DataSubscriber
import Rpcmple.Cpp.Datagrams
import Rpcmple.Cpp.Decoding
import Rpcmple.Cpp.Delivery
import Rpcmple.Cpp.EndToEnd
import Rpcmple.Cpp.Exchange
import Rpcmple.Cpp.FlowSteps
import Rpcmple.Cpp.Frames
import Rpcmple.Cpp.Framing
import Rpcmple.Cpp.FromBinary
import Rpcmple.Cpp.Grouping
import Rpcmple.Cpp.Histories
import Rpcmple.Cpp.Invocations
import Rpcmple.Cpp.Matching
import Rpcmple.Cpp.MessageManager
import Rpcmple.Cpp.Moves
import Rpcmple.Cpp.Notifying
import Rpcmple.Cpp.PartialWrites
import Rpcmple.Cpp.PublishSubscribe
import Rpcmple.Cpp.Publishing
import Rpcmple.Cpp.PublishingThreads
import Rpcmple.Cpp.Reading
import Rpcmple.Cpp.Replies
import Rpcmple.Cpp.RpcClient
import Rpcmple.Cpp.RpcServer
import Rpcmple.Cpp.Safety
import Rpcmple.Cpp.Sections
import Rpcmple.Cpp.ServerSide
import Rpcmple.Cpp.Session
import Rpcmple.Cpp.Sizes
import Rpcmple.Cpp.Sockets
import Rpcmple.Cpp.StdInOutClient
import Rpcmple.Cpp.Streams
import Rpcmple.Cpp.Throwing
import Rpcmple.Cpp.ToBinary
import Rpcmple.Cpp.Turns
import Rpcmple.Cpp.UdpPublishing
import Rpcmple.Cpp.UdpSocket
import Rpcmple.Cpp.UdpSubscribing
import Rpcmple.Cpp.Waiting
import Rpcmple.Cpp.WideStrings
import Rpcmple.Data.Bytes
import Rpcmple.Data.Completion
import Rpcmple.Data.Exec
import Rpcmple.Data.Format
import Rpcmple.Data.Interleaving
import Rpcmple.Data.Loop
import Rpcmple.Data.Machine
import Rpcmple.Data.Monitor
import Rpcmple.Data.Outcome
import Rpcmple.Data.Parties
import Rpcmple.Data.Relay
import Rpcmple.Data.Sections
import Rpcmple.Data.System
import Rpcmple.Data.Waiting
import Rpcmple.Datagrams
import Rpcmple.FrameLaw
import Rpcmple.Go.Acceptance
import Rpcmple.Go.Attribution
import Rpcmple.Go.Calling
import Rpcmple.Go.Closing
import Rpcmple.Go.DataPublisher
import Rpcmple.Go.DataSignature
import Rpcmple.Go.DataSubscriber
import Rpcmple.Go.Delivery
import Rpcmple.Go.FailedCall
import Rpcmple.Go.Frames
import Rpcmple.Go.Framing
import Rpcmple.Go.Grammar
import Rpcmple.Go.MessageManager
import Rpcmple.Go.Naming
import Rpcmple.Go.Ownership
import Rpcmple.Go.Pool
import Rpcmple.Go.Publishing
import Rpcmple.Go.Replies
import Rpcmple.Go.Resending
import Rpcmple.Go.RpcClient
import Rpcmple.Go.Stopping
import Rpcmple.Go.Termination
import Rpcmple.Go.Turns
import Rpcmple.Go.UdpPublishing
import Rpcmple.Go.UdpSubscribing
import Rpcmple.Go.Waiting
import Rpcmple.PublishComplete
import Rpcmple.Wire.Datagram
import Rpcmple.Wire.Frame
import Rpcmple.Wire.Value
