import ProtoMsgQueue.Common.Types
import ProtoMsgQueue.Lib.UnorderedMap

/-!
# Configuration records

The configuration structures of `common/config.h`, field by field with their defaults, and
the manager that holds them.
-/

namespace ProtoMsgQueue

/-- Settings of one topic. -/
structure TopicConfig where
  /-- 0: use the global default. -/
  ringBufferSize : UInt64 := 0
  /-- 0: use the global default. -/
  defaultTtlMs : UInt32 := 0
  /-- Does this topic compress? -/
  compressionEnabled : Bool := false
deriving DecidableEq, Repr

/-- Global settings of the broker. -/
structure BrokerConfig where
  port : UInt16 := 9090
  batchPublishEnabled : Bool := true
  batchPushEnabled : Bool := true
  maxBatchSize : UInt32 := 100
  heartbeatEnabled : Bool := true
  heartbeatIntervalMs : UInt32 := 5000
  heartbeatTimeoutMs : UInt32 := 15000
  heartbeatCheckIntervalMs : UInt32 := 5000
  rateLimitEnabled : Bool := true
  globalPublishRate : UInt32 := 10000
  connPublishRate : UInt32 := 1000
  rateLimitBurst : UInt32 := 100
  maxWriteBufferSize : UInt64 := 8 * 1024 * 1024
  ttlEnabled : Bool := true
  defaultTtlMs : UInt32 := 0
  expirationCheckIntervalMs : UInt32 := 10000
  compressionEnabled : Bool := false
  compressionThresholdBytes : UInt32 := 1024
  zeroCopyEnabled : Bool := true
  dedupEnabled : Bool := true
  dedupWindowSize : UInt64 := 100000
  defaultRingBufferSize : UInt64 := 1024 * 1024
  maxRetryCount : UInt32 := 3
  pendingTimeoutMs : UInt32 := 5000
  retryIntervalMs : UInt32 := 1000
deriving DecidableEq, Repr

/-- The configuration manager: global settings and settings of topics. -/
structure ConfigManager where
  /-- The global settings. -/
  globalConfig : BrokerConfig
  /-- The settings of topics. -/
  topicConfigs : UnorderedMap TopicName TopicConfig := ∅

/-- Set the configuration of a topic. -/
def ConfigManager.setTopicConfig (manager : ConfigManager) (topic : TopicName)
    (config : TopicConfig) : ConfigManager :=
  { manager with topicConfigs := manager.topicConfigs.insert topic config }

/-- The configuration of a topic, the default one if none was set. -/
def ConfigManager.getTopicConfig (manager : ConfigManager) (topic : TopicName) : TopicConfig :=
  UnorderedMap.valueAt manager.topicConfigs topic {}

/-- Was a configuration of the topic set? -/
def ConfigManager.hasTopicConfig (manager : ConfigManager) (topic : TopicName) : Bool :=
  topic ∈ manager.topicConfigs

end ProtoMsgQueue
