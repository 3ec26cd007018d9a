import NginxFastcgi.Foundation.Transition
import NginxFastcgi.Foundation.Memory
import NginxFastcgi.Foundation.ByteOrder
import NginxFastcgi.Foundation.MachineInt
import NginxFastcgi.Foundation.Blocks
import NginxFastcgi.Foundation.PartialMap
import NginxFastcgi.Foundation.Loop
import NginxFastcgi.Foundation.ObjectIndex
import NginxFastcgi.Network.Buffer
import NginxFastcgi.Network.BufferString
import NginxFastcgi.Network.Buffers
import NginxFastcgi.Network.FlatString
import NginxFastcgi.Service.WireFormat
import NginxFastcgi.Service.RequestPacket
import NginxFastcgi.Service.ResponsePacket
import NginxFastcgi.Service.Dispatcher
import NginxFastcgi.Service.Task
import NginxFastcgi.Foundation.Framing
import NginxFastcgi.Network.PollUnit
import NginxFastcgi.Network.PollPool
import NginxFastcgi.Network.PollShutdown
import NginxFastcgi.Network.PollPass
import NginxFastcgi.Network.PollOwners
import NginxFastcgi.Network.Kernel
import NginxFastcgi.Network.EventLoop
import NginxFastcgi.Network.Registry
import NginxFastcgi.Network.Provenance
import NginxFastcgi.Network.Handlers
import NginxFastcgi.Network.Connection
import NginxFastcgi.Service.TcpConnection
import NginxFastcgi.Service.DecodeTiling
import NginxFastcgi.Service.Delivery
import NginxFastcgi.Service.SendPath
import NginxFastcgi.Service.PipeQueue
import NginxFastcgi.Service.PipeWriter
import NginxFastcgi.Service.PipeReader
import NginxFastcgi.Service.PipeTransit
import NginxFastcgi.Service.PipeRun
import NginxFastcgi.Service.PipeReassembly
import NginxFastcgi.Service.PipeCoverage
import NginxFastcgi.Service.Server
import NginxFastcgi.Service.LiveReply
import NginxFastcgi.Service.PipePassage
import NginxFastcgi.Service.ReplyOrder
import NginxFastcgi.Service.ReplyProgress
import NginxFastcgi.Service.ReplyRuns
import NginxFastcgi.Service.LiveNotify
import NginxFastcgi.Service.Rejection
import NginxFastcgi.Service.SendState
import NginxFastcgi.Service.PushBuffer
import NginxFastcgi.Thread.ThreadBase
import NginxFastcgi.Thread.Interrupt
import NginxFastcgi.Thread.ThreadMutex
import NginxFastcgi.Service.PollThread
import NginxFastcgi.Fastcgi.TcpClient
import NginxFastcgi.Fastcgi.ClientUnitPool
import NginxFastcgi.Fastcgi.ClosePool
import NginxFastcgi.Service.ListenServer
import NginxFastcgi.Service.InheritedSocket
import NginxFastcgi.Service.ListenerRuns
import NginxFastcgi.Foundation.Emission
import NginxFastcgi.Service.DispatcherChain
import NginxFastcgi.Service.ReplyRoute
import NginxFastcgi.Service.ReplyTraffic
import NginxFastcgi.Foundation.Heap
import NginxFastcgi.Foundation.Decimal
import NginxFastcgi.Foundation.Calendar
import NginxFastcgi.Foundation.TextBuffer
import NginxFastcgi.Network.BufferStorage
import NginxFastcgi.Thread.DateTime
import NginxFastcgi.Public.Log
import NginxFastcgi.Fcgi.Record
import NginxFastcgi.Fcgi.Ipc
import NginxFastcgi.Fcgi.Writer
import NginxFastcgi.Fcgi.WriterRecords
import NginxFastcgi.Fcgi.OutputStreams
import NginxFastcgi.Fcgi.Params
import NginxFastcgi.Fcgi.Reader
import NginxFastcgi.Fcgi.FillBuffer
import NginxFastcgi.Fcgi.ReadBounds
import NginxFastcgi.Fcgi.ReadClients
import NginxFastcgi.Fcgi.NameValue
import NginxFastcgi.Fcgi.ParamsStream
import NginxFastcgi.Fcgi.Demultiplex
import NginxFastcgi.Fcgi.FillPhases
import NginxFastcgi.Fcgi.RecordContent
import NginxFastcgi.Fcgi.Values
import NginxFastcgi.Fcgi.HeaderVerdicts
import NginxFastcgi.Fcgi.InputStream
import NginxFastcgi.Fcgi.InputCalls
import NginxFastcgi.Fcgi.StreamRecords
import NginxFastcgi.Fcgi.InputRuns
import NginxFastcgi.Fcgi.Accept
import NginxFastcgi.Fcgi.RequestService
import NginxFastcgi.Fcgi.Finish
import NginxFastcgi.Fcgi.WebRequest
import NginxFastcgi.Fcgi.AcceptRuns
