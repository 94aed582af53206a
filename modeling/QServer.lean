import QServer.Lib.Machine
import QServer.Lib.OrderedSet
import QServer.Timer.Basic
import QServer.Timer.Reentrant
import QServer.Timer.Roster
import QServer.Timer.Safety
import QServer.Timer.NoLoss
import QServer.Co.CoPool
import QServer.Co.CoTask
import QServer.Co.Tidy
import QServer.Co.YieldResult
import QServer.Co.Messages
import QServer.Lib.CallStack
import QServer.Co.Nesting
import QServer.Co.Census
import QServer.Co.Waits
import QServer.Trans.TransMgr
import QServer.Trans.Scheduler
import QServer.Lib.Ledger
import QServer.Trans.Ownership
import QServer.Trans.Conservation
import QServer.Trans.Staffed
import QServer.Trans.Wraparound
import QServer.Trans.Switches
import QServer.Rpc.SvrCommTrans
import QServer.Rpc.Correlation
import QServer.Redis.RedisCmd
import QServer.Redis.RedisSvr
import QServer.Redis.OwnReply
import QServer.Lib.ProtoCodec
import QServer.Redis.ConvertReply
import QServer.Redis.Fidelity
import QServer.Lib.Proto3
import QServer.Redis.Command
import QServer.Trans.Rejection
import QServer.Lib.OrderedMap
import QServer.Routing.ConsistentHash
import QServer.Routing.Membership
import QServer.Routing.Walk
import QServer.Client.ClientBase
import QServer.Client.Reconnect
import QServer.Discovery.SvrList
import QServer.Discovery.AppBase
import QServer.Discovery.WatchChain
import QServer.Discovery.Requests
import QServer.Discovery.Convergence
import QServer.Discovery.Fetch
import QServer.Discovery.Session
import QServer.Discovery.Registration
import QServer.Lib.Register
import QServer.Discovery.Registry
import QServer.Redis.Decoder
import QServer.Redis.Service
import QServer.Redis.Replies
import QServer.Discovery.ZooWrites
import QServer.Timer.Period
import QServer.Co.CancelList
import QServer.Lib.Separated
import QServer.Identity.LocalIP
import QServer.Identity.SelfId
import QServer.Lib.Resp
import QServer.Redis.FormatCommand
import QServer.Redis.FormatWords
import QServer.Redis.Commands
import QServer.Redis.FormattedPath
import QServer.Redis.ReplyParse
import QServer.Redis.ScanReply
import QServer.Lib.Clocked
import QServer.Co.Timely
import QServer.Trans.Deadline
import QServer.Redis.Deadline
import QServer.Rpc.InTime
import QServer.Redis.Fleet
import QServer.Redis.EndToEnd
import QServer.Lib.Block
import QServer.Redis.Sds
import QServer.Redis.SdsText
import QServer.Redis.SdsFormat
import QServer.Lib.Linear
import QServer.Redis.Deployment
import QServer.Redis.Linearizable
import QServer.Discovery.Settling
import QServer.Discovery.Healing
