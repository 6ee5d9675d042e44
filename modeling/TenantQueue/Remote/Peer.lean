import TenantQueue.Remote.Request
import TenantQueue.Store.Backend

/-! A remote store whose server has its replies prepared. It keeps what it is sent. -/
namespace TenantQueue.Remote

structure Peer where
  layout : KeyLayout
  replies : List Reply
  /-- The requests so far, the latest first. -/
  sent : List Words

namespace Peer

/-- Sends a request and gets the next reply. Without one the request is refused. -/
def exchange (peer : Peer) (words : Words) : Except Failure Reply × Peer :=
  let sent := words :: peer.sent
  match peer.replies with
  | [] => (.error (.remote .unknown "no reply"), { peer with sent })
  | .refused reason :: replies => (.error (.remote .unknown reason), { peer with replies, sent })
  | reply :: replies => (.ok reply, { peer with replies, sent })

def perform (call : Call) (peer : Peer) : Outcome call.Reply × Peer :=
  let (reply, peer) := peer.exchange (request peer.layout call)
  (Outcome.ofExcept (reply.bind (accept call)), peer)

private theorem perform_length (call : Call) (peer : Peer) (value : call.Reply) (next : Peer)
    (performed : perform call peer = (.ok value, next)) :
    next.replies.length < peer.replies.length := by
  obtain ⟨layout, replies, sent⟩ := peer
  cases replies with
  | nil => simp [perform, exchange, Outcome.ofExcept, Except.bind] at performed
  | cons reply replies =>
    cases reply <;> simp only [perform, exchange, Prod.mk.injEq] at performed <;>
      obtain ⟨_, rfl⟩ := performed <;> simp

def backend : Backend Peer where
  perform := perform
  patience _ peer := peer.replies.length
  patience_lt queue peer tenant next performed :=
    perform_length (.pop queue) peer (.drained tenant) next performed

def ping (peer : Peer) : Except Failure String × Peer :=
  let (reply, peer) := peer.exchange [Bytes.ofText "PING"]
  (reply.bind fun reply =>
    match reply.text? with
    | some text => .ok text
    | none => .error (unexpected reply), peer)

def delete (peer : Peer) (key : String) : Except Failure Nat × Peer :=
  let (reply, peer) := peer.exchange [Bytes.ofText "DEL", Bytes.ofText key]
  (reply.bind fun reply =>
    match reply.natural with
    | some count => .ok count
    | none => .error (unexpected reply), peer)

def removeMember (peer : Peer) (key member : String) : Except Failure Bool × Peer :=
  let (reply, peer) :=
    peer.exchange [Bytes.ofText "ZREM", Bytes.ofText key, Bytes.ofText member]
  (reply.bind fun reply =>
    match reply.natural with
    | some count => .ok (0 < count)
    | none => .error (unexpected reply), peer)

end Peer
end TenantQueue.Remote
