import ProtoMsgQueue.Lib.StepMachine
import ProtoMsgQueue.Lib.LockOrder
import ProtoMsgQueue.Lib.Budget
import ProtoMsgQueue.Lib.Lineage
import ProtoMsgQueue.Lib.ScopedLock
import ProtoMsgQueue.Lib.BigEndian
import ProtoMsgQueue.Lib.WindowScan
import ProtoMsgQueue.Lib.WireFormat
import ProtoMsgQueue.Lib.IncrementalParser
import ProtoMsgQueue.Lib.CheckedLoop
import ProtoMsgQueue.Lib.TextScan
import ProtoMsgQueue.Lib.Json
import ProtoMsgQueue.Lib.JsonText
import ProtoMsgQueue.Common.Types
import ProtoMsgQueue.Protocol.FrameCodec
import ProtoMsgQueue.Protocol.StreamingFrameCodec
import ProtoMsgQueue.Protocol.Chunking
import ProtoMsgQueue.Protocol.BoundedBuffer
import ProtoMsgQueue.Protocol.Resync
import ProtoMsgQueue.Protocol.OneShot
import ProtoMsgQueue.Common.Config
import ProtoMsgQueue.Common.ConfigFile
import ProtoMsgQueue.Common.ConfigNumbers
import ProtoMsgQueue.Network.Connection
import ProtoMsgQueue.Network.WriteLimits
import ProtoMsgQueue.Network.TcpServer
import ProtoMsgQueue.Network.LockSafety
import ProtoMsgQueue.Network.Receiving
import ProtoMsgQueue.Network.Link
import ProtoMsgQueue.Network.TcpClient
import ProtoMsgQueue.Network.EventTags
import ProtoMsgQueue.Network.EdgeTriggered
import ProtoMsgQueue.Network.EventProgress
import ProtoMsgQueue.Network.ServerThreads
import ProtoMsgQueue.Network.StopReturns
import ProtoMsgQueue.Lib.Circular
import ProtoMsgQueue.RingBuffer.SpscRingBuffer
import ProtoMsgQueue.RingBuffer.Fifo
import ProtoMsgQueue.Lib.UnorderedMap
import ProtoMsgQueue.Storage.StoredMessage
import ProtoMsgQueue.Storage.TopicData
import ProtoMsgQueue.Storage.Log
import ProtoMsgQueue.Storage.Pull
import ProtoMsgQueue.Storage.PullSpec
import ProtoMsgQueue.Storage.Passes
import ProtoMsgQueue.Storage.Consistency
import ProtoMsgQueue.Storage.SharedTopic
import ProtoMsgQueue.Storage.LogOrder
import ProtoMsgQueue.Storage.Deliveries
import ProtoMsgQueue.Storage.PassOrders
import ProtoMsgQueue.Storage.Drainable
import ProtoMsgQueue.Storage.Ledger
import ProtoMsgQueue.Storage.RetryLineage
import ProtoMsgQueue.Storage.DeadLetters
import ProtoMsgQueue.Storage.FirstDelivery
import ProtoMsgQueue.Storage.PoisonMessages
import ProtoMsgQueue.Storage.AtLeastOnce
import ProtoMsgQueue.Storage.AckFinal
import ProtoMsgQueue.Storage.RetryOwners
import ProtoMsgQueue.Storage.Isolation
import ProtoMsgQueue.Storage.Expiration
import ProtoMsgQueue.Common.ErrorCode
import ProtoMsgQueue.Common.RateLimiter
import ProtoMsgQueue.Common.TokenRate
import ProtoMsgQueue.Common.DedupWindow
import ProtoMsgQueue.Common.DedupHistory
import ProtoMsgQueue.Common.Compression
import ProtoMsgQueue.Storage.MemoryMessageStore
import ProtoMsgQueue.Storage.TopicAt
import ProtoMsgQueue.Storage.TopicTrace
import ProtoMsgQueue.Storage.Backpressure
import ProtoMsgQueue.Storage.Waiting
import ProtoMsgQueue.Storage.Refusals
import ProtoMsgQueue.Storage.HandedOnce
import ProtoMsgQueue.Storage.Provenance
import ProtoMsgQueue.Storage.SharedStore
import ProtoMsgQueue.Storage.TopicLifetime
import ProtoMsgQueue.Storage.ExpirationInvisible
import ProtoMsgQueue.Storage.SeparateTopics
import ProtoMsgQueue.Storage.DeadLetterQueue
import ProtoMsgQueue.Protocol.Messages
import ProtoMsgQueue.Mq.TopicManager
import ProtoMsgQueue.Mq.Subscriptions
import ProtoMsgQueue.Mq.Registry
import ProtoMsgQueue.Mq.RoundRobin
import ProtoMsgQueue.Mq.Broker
import ProtoMsgQueue.Mq.OutFrames
import ProtoMsgQueue.Mq.Sessions
import ProtoMsgQueue.Mq.HandlerCases
import ProtoMsgQueue.Mq.TopicManagerCalls
import ProtoMsgQueue.Mq.RateCharges
import ProtoMsgQueue.Mq.BatchFanOut
import ProtoMsgQueue.Mq.SessionEnd
import ProtoMsgQueue.Mq.Deduplication
import ProtoMsgQueue.Mq.Replies
import ProtoMsgQueue.Mq.ProducerOrder
import ProtoMsgQueue.Mq.Conversation
import ProtoMsgQueue.Mq.ExactlyOnce
import ProtoMsgQueue.Mq.RequestReply
import ProtoMsgQueue.Mq.Retries
import ProtoMsgQueue.Mq.StoreOps
import ProtoMsgQueue.Mq.GroupFrames
import ProtoMsgQueue.Mq.Receivers
import ProtoMsgQueue.Mq.GroupReach
import ProtoMsgQueue.Mq.GroupDelivery
import ProtoMsgQueue.Mq.TopicRegistries
import ProtoMsgQueue.Mq.PayloadFidelity
import ProtoMsgQueue.Mq.FrameSizes
import ProtoMsgQueue.Mq.BatchReplies
import ProtoMsgQueue.Mq.TrackedProducers
import ProtoMsgQueue.Mq.AdminJson
import ProtoMsgQueue.Mq.TopicSettings
import ProtoMsgQueue.Mq.ProcessLocks
import ProtoMsgQueue.Mq.RateBound
import ProtoMsgQueue.Mq.PulledMessages
import ProtoMsgQueue.Mq.PullDelivery
import ProtoMsgQueue.Mq.PushDelivery
