import GridMq.Library.Transition
import GridMq.Protocols.PipeQueues
import GridMq.Core.Pipe
import GridMq.Aio.Timer
import GridMq.Aio.WorkerRuns
import GridMq.Aio.CtxThreadsRuns
import GridMq.Aio.UsockRequests
import GridMq.PubSub.TrieRuns
import GridMq.PubSub.TrieExact
import GridMq.PubSub.TrieReads
import GridMq.Protocols.ServiceOrder
import GridMq.Core.SocketTableRuns
import GridMq.Utils.ChunkrefRuns
import GridMq.ReqRep.XrepParse
import GridMq.ReqRep.ReqRuns
import GridMq.ReqRep.RepRuns
import GridMq.Devices.Backtrace
import GridMq.Transports.Stcp
import GridMq.Transports.Sipc
import GridMq.Transports.CipcRuns
import GridMq.Transports.CtcpRuns
import GridMq.Transports.SinprocRuns
import GridMq.Transports.StreamhdrRuns
import GridMq.Core.SockUseRuns
import GridMq.Core.GlobalRuns
import GridMq.Core.GlobalLocksRuns
import GridMq.Core.HoldsRuns
import GridMq.Core.SockMethodsRuns
import GridMq.Transports.RemovedPipesRuns
import GridMq.Core.ReadinessRuns
import GridMq.Survey.XsurveyorInvariant
import GridMq.Survey.Surveyor
import GridMq.Survey.SurveyorSteps
import GridMq.Survey.SurveyorRuns
import GridMq.Survey.SurveyorMessages
import GridMq.Survey.TimerOptions
import GridMq.ReqRep.XrepKeys
import GridMq.Core.Cmsg
import GridMq.Utils.ChunkHeap
import GridMq.Core.Sendmsg
import GridMq.Core.Assemble
import GridMq.Protocols.SocketTypes
import GridMq.Protocols.FailedSends
import GridMq.Protocols.HeaderAsserts
import GridMq.Transports.BoundShutdown
import GridMq.Transports.StatisticsRuns
import GridMq.Core.CmsgWalk
import GridMq.Core.Recvmsg
import GridMq.Core.RecvmsgBuffers
import GridMq.Core.Ancillary
import GridMq.Utils.ChunkRealloc
import GridMq.Protocols.FanOut
import GridMq.Transports.MsgqueueChunks
import GridMq.Core.Poll
import GridMq.Tools.ReadFile
import GridMq.Utils.List
import GridMq.Aio.Timerset
import GridMq.Utils.HashTable
import GridMq.Aio.PollerEpoll
import GridMq.Aio.PollerPoll
import GridMq.Tools.StringLists
import GridMq.Tools.StringListsRuns
import GridMq.Tools.StringListsOwned
import GridMq.Transports.MsgqueueFrame
import GridMq.Transports.CinprocMemory
import GridMq.Transports.TcpAddress
import GridMq.Transports.TcpAddressGrammar
import GridMq.Utils.ListRuns
import GridMq.Utils.Queue
import GridMq.Tools.LongOptions
import GridMq.Transports.Base64
import GridMq.Transports.Base64Bounds
import GridMq.Library.Regroup
import GridMq.Transports.Base64RoundTrip
import GridMq.Transports.EndpointCreation
import GridMq.Transports.BackoffRuns
import GridMq.Transports.BoundTransports
import GridMq.Transports.BtcpRuns
import GridMq.Transports.BoundAccepts
import GridMq.Transports.IpcPaths
import GridMq.Library.Journal
import GridMq.Library.Machine
import GridMq.Library.Network
import GridMq.Protocols.SocketPipes
import GridMq.Protocols.PipeStages
import GridMq.Protocols.FairQueue
import GridMq.Protocols.PipeJournals
import GridMq.Protocols.Receiver
import GridMq.Pipeline.Xpush
import GridMq.Pipeline.Pipeline
import GridMq.Protocols.Boxes
import GridMq.Protocols.TwoWay
import GridMq.Pair.Pair
import GridMq.Bus.Bus
import GridMq.Survey.SurveyorBoxes
import GridMq.Survey.Questioner
import GridMq.Survey.Responses
import GridMq.ReqRep.Conversation
import GridMq.ReqRep.RepBoxes
import GridMq.ReqRep.Asker
import GridMq.ReqRep.Requester
import GridMq.ReqRep.ReqBoxes
import GridMq.PubSub.Publication
import GridMq.PubSub.Xpub
import GridMq.PubSub.Xsub
