import WServer.Library.BinaryHeap
import WServer.Library.Runs
import WServer.Library.Segments
import WServer.Library.Decimal
import WServer.Library.Scan
import WServer.Library.Hexadecimal
import WServer.Library.Projections
import WServer.Library.MessageFormat
import WServer.Library.Monitors
import WServer.Library.RoundRobin
import WServer.Library.Calendar
import WServer.Buffer
import WServer.BufferFifo
import WServer.BufferAccessors
import WServer.SetContent
import WServer.Channel
import WServer.EpollMirror
import WServer.ChannelRemoval
import WServer.HttpContext
import WServer.ParserRun
import WServer.WellFormedRequest
import WServer.AcceptedRequest
import WServer.RequestGrammar
import WServer.LineVerdicts
import WServer.LineScan
import WServer.ParserSoundness
import WServer.ConnectionMode
import WServer.Segmentation
import WServer.HeadRequest
import WServer.IncrementalParsing
import WServer.HistoryIndependence
import WServer.TcpConnection
import WServer.ConnectionHandlers
import WServer.CloseOnce
import WServer.ParserProgress
import WServer.KeepAliveStream
import WServer.OutputDelivery
import WServer.EndOfStream
import WServer.TalkingConnection
import WServer.AnnouncedClose
import WServer.WriteInterest
import WServer.TimerHeap
import WServer.TimersServed
import WServer.MinHeap
import WServer.EventLoop
import WServer.FunctorQueue
import WServer.NoLostWakeup
import WServer.TimeoutOrder
import WServer.EventLoopThread
import WServer.Acceptor
import WServer.TcpServer
import WServer.HandlerEffects
import WServer.ConnectionLifecycle
import WServer.ServerInvariant
import WServer.ServerCalls
import WServer.ServerConnections
import WServer.ServerLifecycle
import WServer.ConnectionNames
import WServer.EventLoopThreadPool
import WServer.LogStream
import WServer.FormatInteger
import WServer.LogInsertions
import WServer.StreamBounds
import WServer.FormatPointer
import WServer.AsyncLog
import WServer.LogBuffers
import WServer.LogBytes
import WServer.LogShutdown
import WServer.LogIntegrity
import WServer.LogLine
import WServer.LogPointers
import WServer.FlushWait
import WServer.Condition
import WServer.AppendFile
import WServer.LogFile
import WServer.WrittenBytes
import WServer.TimeoutPass
import WServer.ServerSteps
import WServer.ServerLoops
import WServer.ServerObjects
import WServer.ResponseForm
import WServer.ServerStreams
import WServer.LogBacklog
import WServer.LogPipeline
import WServer.CountDownLatch
import WServer.ThreadStart
import WServer.EpollPoll
import WServer.BufferMemory
import WServer.LogNames
import WServer.LogStatements
import WServer.BuildRequest
import WServer.WebbenchRequest
import WServer.ServerIsolation
