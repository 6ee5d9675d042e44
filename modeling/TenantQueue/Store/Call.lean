import TenantQueue.Double.Basic
import TenantQueue.Failure
import TenantQueue.Task.Basic

/-! The operations of a store. Each is one indivisible call, with the reply that belongs to
it. -/
namespace TenantQueue

/-- What one attempt to pop gives. A drained tenant had no pending task and has left the
registry. -/
inductive PopOutcome where
  | empty
  | drained (tenant : Tenant)
  | popped (tenant : Tenant) (record : Bytes)
  deriving DecidableEq

inductive Call where
  | push (queue : String) (tenant : Tenant) (record : Bytes) (score : Double)
  | pop (queue : String)
  | size (queue : String)
  | release (queue : String) (tenant : Tenant)
  | activeTenants (queue : String)
  | addProcessing (queue : String) (tenant : Tenant) (fingerprint : Fingerprint) (deadline : Double)
  | removeProcessing (queue : String) (tenant : Tenant) (fingerprint : Fingerprint)
  | expiredProcessing (queue : String) (tenant : Tenant) (now : Double)
  | setPayload (queue : String) (fingerprint : Fingerprint) (record : Bytes)
  | getPayload (queue : String) (fingerprint : Fingerprint)
  | deletePayload (queue : String) (fingerprint : Fingerprint)
  deriving DecidableEq

namespace Call

abbrev Reply : Call → Type
  | push _ _ _ _ => Unit
  | pop _ => PopOutcome
  | size _ => Nat
  | release _ _ => Unit
  | activeTenants _ => List (Tenant × Int)
  | addProcessing _ _ _ _ => Bool
  | removeProcessing _ _ _ => Unit
  | expiredProcessing _ _ _ => List Fingerprint
  | setPayload _ _ _ => Unit
  | getPayload _ _ => Option Bytes
  | deletePayload _ _ => Unit

inductive Kind where
  | push
  | pop
  | size
  | release
  | activeTenants
  | addProcessing
  | removeProcessing
  | expiredProcessing
  | setPayload
  | getPayload
  | deletePayload
  deriving DecidableEq

def kind : Call → Kind
  | push _ _ _ _ => .push
  | pop _ => .pop
  | size _ => .size
  | release _ _ => .release
  | activeTenants _ => .activeTenants
  | addProcessing _ _ _ _ => .addProcessing
  | removeProcessing _ _ _ => .removeProcessing
  | expiredProcessing _ _ _ => .expiredProcessing
  | setPayload _ _ _ => .setPayload
  | getPayload _ _ => .getPayload
  | deletePayload _ _ => .deletePayload

def Kind.name : Kind → String
  | push => "push"
  | pop => "pop"
  | size => "size"
  | release => "release"
  | activeTenants => "active_tenants"
  | addProcessing => "add_processing"
  | removeProcessing => "remove_processing"
  | expiredProcessing => "expired_processing"
  | setPayload => "set_payload"
  | getPayload => "get_payload"
  | deletePayload => "delete_payload"

def Kind.all : List Kind :=
  [push, pop, size, release, activeTenants, addProcessing, removeProcessing, expiredProcessing,
    setPayload, getPayload, deletePayload]

end Call

end TenantQueue
