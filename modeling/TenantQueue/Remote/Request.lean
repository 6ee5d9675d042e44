import TenantQueue.Double.Shortest
import TenantQueue.KeyLayout
import TenantQueue.Remote.Reply
import TenantQueue.Remote.Script

/-! Requests to a remote store's server: the words in which each call is sent, and what its
reply is taken for. -/
namespace TenantQueue.Remote

abbrev Words := List Bytes

structure LinkConfig where
  url : String
  poolSize : Nat
  deriving DecidableEq

def LinkConfig.standard : LinkConfig := ⟨"redis://localhost:6379", 10⟩

private def evaluate (script : String) (keys : List String) (arguments : Words) : Words :=
  [Bytes.ofText "EVAL", Bytes.ofText script, Bytes.ofText (Nat.repr keys.length)] ++
    keys.map Bytes.ofText ++ arguments

def request (layout : KeyLayout) : Call → Words
  | .push queue tenant record score =>
    evaluate Script.push [layout.pending queue tenant, layout.active queue]
      [Bytes.ofText (score.fixed 6), record, Bytes.ofText tenant.name]
  | .pop queue =>
    evaluate Script.pop [layout.active queue] [Bytes.ofText (layout.pendingBase queue)]
  | .size queue =>
    evaluate Script.size [layout.active queue] [Bytes.ofText (layout.pendingBase queue)]
  | .release queue tenant =>
    evaluate Script.release [layout.active queue] [Bytes.ofText tenant.name]
  | .activeTenants queue =>
    ["ZRANGE", layout.active queue, "0", "-1", "WITHSCORES"].map Bytes.ofText
  | .addProcessing queue tenant fingerprint deadline =>
    ["ZADD", layout.processing queue tenant, "NX", deadline.text, fingerprint.text].map Bytes.ofText
  | .removeProcessing queue tenant fingerprint =>
    ["ZREM", layout.processing queue tenant, fingerprint.text].map Bytes.ofText
  | .expiredProcessing queue tenant now =>
    ["ZRANGEBYSCORE", layout.processing queue tenant, "-inf", now.text].map Bytes.ofText
  | .setPayload queue fingerprint record =>
    [Bytes.ofText "SET", Bytes.ofText (layout.payload queue fingerprint), record]
  | .getPayload queue fingerprint => ["GET", layout.payload queue fingerprint].map Bytes.ofText
  | .deletePayload queue fingerprint => ["DEL", layout.payload queue fingerprint].map Bytes.ofText

def unexpected (reply : Reply) : Failure := .remote .parse ("unexpected reply " ++ reply.shown)

private def number (reply : Reply) : Except Failure Nat :=
  match reply.natural with
  | some value => .ok value
  | none => .error (unexpected reply)

private def tenantOf (reply : Reply) : Except Failure Tenant :=
  match reply.tenant? with
  | some tenant => .ok tenant
  | none => .error (.serialization (.tenantReply reply.shown))

def popOutcome (reply : Reply) : Except Failure PopOutcome :=
  match reply.items with
  | status :: tenant :: record :: _ =>
    match status.text? with
    | some "empty" => .ok .empty
    | some "retry" => do return .drained (← tenantOf tenant)
    | some "ok" => do
      let tenant ← tenantOf tenant
      match record.bytes? with
      | some record => return .popped tenant record
      | none => .error (.serialization .poppedTask)
    | other => .error (.serialization (.popStatus other))
  | _ => .error (.serialization .popReply)

/-- Members and their scores by turns. A pair that cannot be read is passed over. -/
def scoredMembers : List Reply → List (String × Double)
  | member :: score :: rest =>
    match member.text?, score.double? with
    | some member, some score => (member, score) :: scoredMembers rest
    | _, _ => scoredMembers rest
  | _ => []

private def registered (entry : String × Double) : Except Failure (Tenant × Int) :=
  match Tenant.ofName? entry.1 with
  | some tenant => .ok (tenant, entry.2.truncated)
  | none => .error (.serialization (.registeredTenant entry.1))

def accept : (call : Call) → Reply → Except Failure call.Reply
  | .push _ _ _ _, _ => .ok ()
  | .pop _, reply => popOutcome reply
  | .size _, reply =>
    match reply.natural with
    | some count => .ok count
    | none => .error (.serialization (.sizeReply reply.shown))
  | .release _ _, _ => .ok ()
  | .activeTenants _, reply => (scoredMembers reply.items).mapM registered
  | .addProcessing _ _ _ _, reply =>
    match reply.integer? with
    | some count => .ok (0 < count)
    | none => .error (unexpected reply)
  | .removeProcessing _ _ _, reply => (number reply).map fun _ => ()
  | .expiredProcessing _ _ _, reply => .ok ((reply.items.filterMap Reply.text?).map Fingerprint.mk)
  | .setPayload _ _ _, _ => .ok ()
  | .getPayload _ _, reply => .ok reply.bytes?
  | .deletePayload _ _, reply => (number reply).map fun _ => ()

end TenantQueue.Remote
