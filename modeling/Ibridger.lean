import Ibridger.Cpp.DescriptorRelease
import Ibridger.Cpp.FrameStream
import Ibridger.Js.Receiver
import Ibridger.Js.RecvOrder
import Ibridger.Js.Sender
import Ibridger.Protocol.Framing
import Ibridger.Rpc.Session
import Ibridger.Cpp.Dispatcher
import Ibridger.Cpp.Session
import Ibridger.Js.Dispatch
import Ibridger.Js.Session
import Ibridger.Foundation.Interleaving
import Ibridger.Protocol.Session
import Ibridger.Cpp.Client
import Ibridger.Cpp.Reconnect
import Ibridger.Cpp.FrameTransfer
import Ibridger.Cpp.ClientStep
import Ibridger.Cpp.ClientWrites
import Ibridger.Cpp.RetrySafety
import Ibridger.Cpp.Correlation
import Ibridger.Js.Client
import Ibridger.Js.Disconnect
import Ibridger.Js.LateReads
import Ibridger.Js.OneConnection
import Ibridger.Js.SameConnection
import Ibridger.Js.ReconnectLoop
import Ibridger.Cpp.ConnectionTable
import Ibridger.Cpp.ServerCycles
import Ibridger.Cpp.RunningFlag
import Ibridger.Js.Abandoned
import Ibridger.Js.Mismatch
import Ibridger.Cpp.Mismatch
import Ibridger.Protocol.Mismatch
import Ibridger.Js.Oversized
import Ibridger.Js.ResultSize
import Ibridger.Cpp.ResultSize
import Ibridger.Protocol.ResultSize
import Ibridger.Js.Sequence
import Ibridger.Js.LateResponses
import Ibridger.Foundation.Spacing
import Ibridger.Rpc.Replies
import Ibridger.Js.Replies
import Ibridger.Cpp.Replies
import Ibridger.Js.EmptyFrames
import Ibridger.Cpp.EmptyFrames
import Ibridger.Protocol.EmptyFrames
import Ibridger.Foundation.Progress
import Ibridger.Js.Answering
import Ibridger.Js.Steady
import Ibridger.Js.TypedMethod
import Ibridger.Js.Link
import Ibridger.Js.RemoteCalls
import Ibridger.Cpp.BlockingCalls
import Ibridger.Cpp.HandlerThreads
import Ibridger.Cpp.StuckStop
import Ibridger.Js.Accounting
import Ibridger.Js.Exclusion
import Ibridger.Js.DisconnectNotice
import Ibridger.Cpp.ClientState
import Ibridger.Cpp.OversizedRequest
import Ibridger.Cpp.Deadlines
import Ibridger.Js.Deadlines
import Ibridger.Protocol.Deadlines
import Ibridger.Cpp.RequestIds
import Ibridger.Js.RequestIds
import Ibridger.Protocol.RequestIds
import Ibridger.Js.Outage
import Ibridger.Js.SingleCaller
import Ibridger.Js.Restoration
import Ibridger.Cpp.SingleCaller
import Ibridger.Cpp.Restoration
import Ibridger.Protocol.Restoration
import Ibridger.Cpp.ClientThreads
import Ibridger.Cpp.ThreadedClient
import Ibridger.Cpp.CallbackLock
import Ibridger.Cpp.TypedMethod
import Ibridger.Protocol.InvalidArgument
import Ibridger.Cpp.UnixSocketTransport
import Ibridger.Cpp.Endpoints
import Ibridger.Js.UnixSocketServer
import Ibridger.Protocol.SocketRestart
import Ibridger.Protocol.PathOwnership
import Ibridger.Cpp.PartialWrites
import Ibridger.Foundation.WriteLog
import Ibridger.Js.OverlappingSends
import Ibridger.Js.ServerLifecycle
import Ibridger.Foundation.Backoff
import Ibridger.Js.AtomicFrames
import Ibridger.Js.Timers
import Ibridger.Cpp.ReconnectAttempts
import Ibridger.Js.ReconnectAttempts
import Ibridger.Protocol.ReconnectSchedule
import Ibridger.Foundation.Supply
import Ibridger.Js.FlowControl
import Ibridger.Cpp.ServiceRegistry
import Ibridger.Foundation.Rounding
import Ibridger.Js.Numbers
import Ibridger.Js.Correlation
import Ibridger.Foundation.Varint
import Ibridger.Foundation.TaggedFields
import Ibridger.Foundation.Protobuf
import Ibridger.Js.StringRecord
import Ibridger.Js.Messages
import Ibridger.Wire.Messages
import Ibridger.Js.Envelopes
import Ibridger.Protocol.Messages
import Ibridger.Protocol.EnvelopeClasses
import Ibridger.Cpp.Answering
import Ibridger.Protocol.Peers
import Ibridger.Cpp.ClientStub
import Ibridger.Js.Addressed
import Ibridger.Protocol.TypedCalls
import Ibridger.Foundation.HandleTable
import Ibridger.Cpp.Handles
import Ibridger.Cpp.Descriptors
import Ibridger.Cpp.PipeHandles
import Ibridger.Cpp.ServerBuilder
import Ibridger.Js.Registration
import Ibridger.Protocol.Registrations
import Ibridger.Cpp.Logger
