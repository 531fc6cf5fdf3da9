import ProtoMsgQueue.Common.ErrorCode
import ProtoMsgQueue.Common.Types

/-!
# Requests and responses

The messages of `proto/msg_queue.proto` a broker reads and writes, with the defaults of
their fields. Their encoding is generated code: `Libraries` takes the parsers, together with
the one function of zlib the broker uses, as parameters.
-/

namespace ProtoMsgQueue

/-! ### Requests -/

/-- Publish a message. -/
structure PublishRequest where
  topic : TopicName := ""
  payload : Payload := []
  /-- How long the message lives; zero is for ever. -/
  ttlMs : UInt32 := 0
  /-- Is the payload compressed already? -/
  compressed : Bool := false
  /-- The name of the producer, for deduplication. -/
  producerId : String := ""
  /-- The producer's increasing sequence number, for deduplication. -/
  sequenceId : ℕ := 0
deriving DecidableEq, Repr

/-- Publish several messages. -/
structure BatchPublishRequest where
  messages : List PublishRequest := []
deriving DecidableEq, Repr

/-- Subscribe to a topic. -/
structure SubscribeRequest where
  topic : TopicName := ""
  subscriberId : SubscriberId := ""
  /-- The consumer group; empty for a broadcast subscription. -/
  groupId : String := ""
deriving DecidableEq, Repr

/-- End a subscription. -/
structure UnsubscribeRequest where
  topic : TopicName := ""
  subscriberId : SubscriberId := ""
  groupId : String := ""
deriving DecidableEq, Repr

/-- Pull messages. -/
structure PullRequest where
  topic : TopicName := ""
  subscriberId : SubscriberId := ""
  /-- The consumer group; empty for an independent consumer. -/
  groupId : String := ""
  maxMessages : UInt32 := 0
deriving DecidableEq, Repr

/-- Acknowledge a message. -/
structure AckRequest where
  topic : TopicName := ""
  subscriberId : SubscriberId := ""
  groupId : String := ""
  messageId : MessageId := 0
deriving DecidableEq, Repr

/-- The administration commands. Numbers that name no command are `unknown`. -/
inductive AdminCommandType where
  | unknown
  | listTopics
  | getTopicInfo
  | deleteTopic
  | getStats
  | getConnections
  | cleanupTopic
deriving DecidableEq, Repr

/-- An administration command. -/
structure AdminRequest where
  command : AdminCommandType := .unknown
  topic : TopicName := ""
deriving DecidableEq, Repr

/-! ### Responses and pushes -/

/-- The response to a request. -/
structure Response where
  success : Bool := false
  errorMsg : String := ""
  messageId : MessageId := 0
  errorCode : UInt32 := 0
deriving DecidableEq, Repr

/-- A message sent to a consumer. -/
structure PushMessage where
  messageId : MessageId
  topic : TopicName
  payload : Payload
  timestamp : ℕ
  /-- Zero for the first delivery. -/
  retryCount : ℕ
  /-- Is the payload marked as compressed? -/
  compressed : Bool
deriving DecidableEq, Repr

/-- The response to an administration command. -/
structure AdminResponse where
  success : Bool := false
  errorMsg : String := ""
  jsonResult : String := ""
deriving DecidableEq, Repr

/-- The response for a Boolean result: any failure is an unknown error. -/
def Response.ofBool (success : Bool) (errorMsg : String := "") (messageId : MessageId := 0) :
    Response where
  success := success
  errorMsg := errorMsg
  messageId := messageId
  errorCode := if success then 0 else ErrorCode.unknown.toUInt32

/-- The response for an error code: an empty text becomes the text of the code. -/
def Response.ofErrorCode (errorCode : ErrorCode) (errorMsg : String := "")
    (messageId : MessageId := 0) : Response where
  success := errorCode = .success
  errorMsg := if errorMsg = "" then errorCodeToString errorCode else errorMsg
  messageId := messageId
  errorCode := errorCode.toUInt32

/-- A response reports success exactly when its error code is zero, whichever way it was
made. -/
theorem Response.errorCode_ofErrorCode (errorCode : ErrorCode) (errorMsg : String)
    (messageId : MessageId) : (Response.ofErrorCode errorCode errorMsg messageId).errorCode = 0 ↔
      (Response.ofErrorCode errorCode errorMsg messageId).success = true := by
  cases errorCode <;> simp [Response.ofErrorCode, ErrorCode.toUInt32]

/-! ### Code outside the repository -/

/-- The code outside the repository the broker calls: the generated parsers, which fail on
malformed bytes, and the compressor of zlib, which gives nothing on an error. -/
structure Libraries where
  parsePublishRequest : List UInt8 → Option PublishRequest
  parseBatchPublishRequest : List UInt8 → Option BatchPublishRequest
  parseSubscribeRequest : List UInt8 → Option SubscribeRequest
  parseUnsubscribeRequest : List UInt8 → Option UnsubscribeRequest
  parsePullRequest : List UInt8 → Option PullRequest
  parseAckRequest : List UInt8 → Option AckRequest
  parseAdminRequest : List UInt8 → Option AdminRequest
  compress2 : List UInt8 → Option (List UInt8)

/-- `Compress` of `common/compression.cpp`: empty for empty data and on an error. -/
def Libraries.compress (lib : Libraries) (data : Payload) : Payload :=
  if data = [] then [] else (lib.compress2 data).getD []

end ProtoMsgQueue
