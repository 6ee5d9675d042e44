import TenantQueue.Duration
import TenantQueue.Text.Quoted

/-! Why an operation fails. Each class of failure has its causes; the wording stands in
`Failure.message`. -/
namespace TenantQueue

inductive RemoteFault where
  | configuration
  | authentication
  | io
  | timeout
  | canceled
  | notFound
  | parse
  | protocol
  | unknown
  deriving DecidableEq

inductive Malformation where
  | packed
  | popReply
  | poppedTask
  | popStatus (status : Option String)
  | sizeReply (shown : String)
  | tenantReply (shown : String)
  | registeredTenant (member : String)
  | stated (text : String)
  deriving DecidableEq

inductive Objection where
  | emptyQueue
  | emptyTaskType
  | oversized (limit size : Nat)
  | unknownPriority (name : String)
  | stated (text : String)
  deriving DecidableEq

inductive Misconfiguration where
  | emptyKeyPrefix
  | zeroPayloadLimit
  | zeroBackoffBase
  | backoffBelowBase (greatest base : Duration)
  | emptyQueueName
  | emptyPool
  | zeroPollInterval
  | alreadyStarted (queue : String)
  | stated (text : String)
  deriving DecidableEq

inductive Failure where
  | remote (fault : RemoteFault) (detail : String)
  | store (reason : String)
  | serialization (cause : Malformation)
  | validation (cause : Objection)
  | handler (reason : String)
  | config (cause : Misconfiguration)
  | metrics (reason : String)
  | shutdown
  deriving DecidableEq

namespace RemoteFault

def title : RemoteFault → String
  | configuration => "Config Error"
  | authentication => "Authentication Error"
  | io => "IO Error"
  | timeout => "Timeout Error"
  | canceled => "Canceled"
  | notFound => "Not Found"
  | parse => "Parse Error"
  | protocol => "Protocol Error"
  | unknown => "Unknown Error"

end RemoteFault

namespace Malformation

def text : Malformation → String
  | packed => "unreadable packed value"
  | popReply => "malformed pop reply"
  | poppedTask => "popped task is not a string"
  | popStatus none => "unexpected pop status: None"
  | popStatus (some status) => "unexpected pop status: Some(" ++ Text.quoted status ++ ")"
  | sizeReply shown => "unexpected size reply: " ++ shown
  | tenantReply shown => "invalid tenant id returned by store: " ++ shown
  | registeredTenant member => "invalid tenant in active registry: " ++ member
  | stated text => text

end Malformation

namespace Objection

def text : Objection → String
  | emptyQueue => "queue cannot be empty"
  | emptyTaskType => "task type cannot be empty"
  | oversized limit size =>
    "payload exceeds " ++ Nat.repr (limit / 1024) ++ "KB limit (got " ++ Nat.repr size ++ "B)"
  | unknownPriority name => "unknown priority: " ++ name
  | stated text => text

end Objection

namespace Misconfiguration

def text : Misconfiguration → String
  | emptyKeyPrefix => "key_prefix cannot be empty"
  | zeroPayloadLimit => "max_payload_size must be greater than 0"
  | zeroBackoffBase => "backoff_base must be greater than 0"
  | backoffBelowBase greatest base =>
    "backoff_max (" ++ greatest.text ++ ") must not be below backoff_base (" ++ base.text ++ ")"
  | emptyQueueName => "queue_name cannot be empty"
  | emptyPool => "pool_size must be greater than 0"
  | zeroPollInterval => "poll_interval must be greater than 0"
  | alreadyStarted queue => "foreman for " ++ queue ++ " is already started"
  | stated text => text

end Misconfiguration

namespace Failure

def message : Failure → String
  | remote fault detail => "Redis error: " ++ fault.title ++ ": " ++ detail
  | store reason => "Store error: " ++ reason
  | serialization cause => "Serialization error: " ++ cause.text
  | validation cause => "Task validation error: " ++ cause.text
  | handler reason => "Handler error: " ++ reason
  | config cause => "Configuration error: " ++ cause.text
  | metrics reason => "Metrics error: " ++ reason
  | shutdown => "Shutdown requested"

def isRetryable : Failure → Bool
  | remote _ _ => true
  | store _ => true
  | _ => false

def isFatal : Failure → Bool
  | validation _ => true
  | config _ => true
  | shutdown => true
  | _ => false

end Failure
end TenantQueue
