import MiniRpc.Library.Splitter
import MiniRpc.Library.Table
import MiniRpc.Library.Transition
import MiniRpc.Library.Memory
import MiniRpc.Common.RpcError
import MiniRpc.Common.Socket
import MiniRpc.Protocol.Frame
import MiniRpc.Protocol.Codec
import MiniRpc.Server.Buffer
import MiniRpc.Server.BufferQueue
import MiniRpc.Server.ServiceRegistry
import MiniRpc.Server.Requests
import MiniRpc.Server.Connection
import MiniRpc.Server.Session
import MiniRpc.Server.HandleConnection
import MiniRpc.Server.WorkerLoop
import MiniRpc.Client.PendingCalls
import MiniRpc.Client.Calls
import MiniRpc.Client.CallLife
import MiniRpc.Client.Invariant
import MiniRpc.Client.Results
import MiniRpc.Client.Dispatcher
import MiniRpc.Client.Session
import MiniRpc.Client.Lifecycle
import MiniRpc.Protocol.RoundTrip
import MiniRpc.Coroutine.Task
import MiniRpc.Server.Responses
import MiniRpc.Server.Routing
import MiniRpc.Server.Suspended
import MiniRpc.Server.OwnedLoop
import MiniRpc.Server.Ownership
import MiniRpc.Server.RpcServer
import MiniRpc.Server.Shutdown
import MiniRpc.Library.TicketQueue
import MiniRpc.Library.Rotation
import MiniRpc.Library.Walks
import MiniRpc.Library.Ledger
import MiniRpc.Common.MpscRingQueue
import MiniRpc.Common.RingPlaces
import MiniRpc.Common.RingFailures
import MiniRpc.Common.RingProgress
import MiniRpc.Common.ThreadPool
import MiniRpc.Common.AcceptedTasks
import MiniRpc.Common.PoolStats
import MiniRpc.Common.ReportedStats
import MiniRpc.Common.Wakeup
import MiniRpc.Server.Outcomes
import MiniRpc.Server.LoopInvariant
import MiniRpc.Server.Closing
import MiniRpc.Server.TaskFrames
import MiniRpc.Server.PendingAdoption
import MiniRpc.Server.Descriptors
import MiniRpc.Server.RequestCounts
import MiniRpc.Server.WriteQueue
import MiniRpc.Server.WakeFd
import MiniRpc.Client.SingleDispatcher
import MiniRpc.Client.LockedClient
import MiniRpc.Client.WaitCycle
import MiniRpc.Client.Waiters
import MiniRpc.Client.WrittenFrames
import MiniRpc.Client.Reachability
import MiniRpc.Client.LoadBalancer
import MiniRpc.Client.LeastInflight
import MiniRpc.Client.RpcClientPool
import MiniRpc.Client.PoolScans
import MiniRpc.Client.PoolRetries
import MiniRpc.Client.Bookkeeping
import MiniRpc.Client.SelectCounts
import MiniRpc.Client.EvenShares
import MiniRpc.Client.Origins
import MiniRpc.Client.Iterations
import MiniRpc.Client.RefusedSends
import MiniRpc.Client.Heartbeat
import MiniRpc.Common.AsyncLogger
import MiniRpc.Common.LoggedRecords
import MiniRpc.Library.Json
import MiniRpc.Library.JsonText
import MiniRpc.Library.LikePattern
import MiniRpc.Codegraph.McpAdapter
import MiniRpc.Codegraph.Answers
import MiniRpc.Codegraph.Traversal
import MiniRpc.Codegraph.Reaching
import MiniRpc.Codegraph.NearestFirst
import MiniRpc.Codegraph.Arguments
import MiniRpc.Codegraph.NativeBackend
import MiniRpc.Codegraph.QueryCache
import MiniRpc.Codegraph.SqliteBackend
import MiniRpc.Codegraph.SearchMatches
import MiniRpc.Codegraph.EmptyBackend
import MiniRpc.Codegraph.SentNumbers
import MiniRpc.Server.Reading
import MiniRpc.Server.EndOfStream
import MiniRpc.EndToEnd.ServerEnd
import MiniRpc.Client.CallEvents
import MiniRpc.EndToEnd.ClientEnd
import MiniRpc.EndToEnd.Exchange
import MiniRpc.EndToEnd.Worker
import MiniRpc.Common.PoolMutexes
import MiniRpc.Common.Stopping
import MiniRpc.Common.PoolTermination
import MiniRpc.Codegraph.RpcService
import MiniRpc.EndToEnd.Bounds
import MiniRpc.EndToEnd.Gateway
import MiniRpc.Common.LogOrder
import MiniRpc.Server.Serve
import MiniRpc.Server.Lingering
