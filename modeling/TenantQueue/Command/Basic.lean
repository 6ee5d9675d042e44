import TenantQueue.Engine.Sweep

/-! Commands that an operator gives: to show a queue's size or its tenants, to enter a task,
and to sweep queues. -/
namespace TenantQueue

structure PushArguments where
  queue : String
  taskType : String
  tenant : Tenant
  payload : String
  priority : Priority
  deriving DecidableEq

inductive Command where
  | size (queue : String)
  | tenants (queue : String)
  | push (arguments : PushArguments)
  /-- Sweeps once, or again and again with some seconds between. -/
  | sweep (queues : List String) (interval : Option Nat)
  deriving DecidableEq

namespace Command

def print (line : String) : Program Unit := .note (.printed line) (.done ())

def refusal? : Command → Option String
  | .sweep _ (some 0) => some "--watch interval must be at least 1 second"
  | _ => none

private def tenantLine (tenant count : String) : String :=
  "  " ++ Text.padRight 20 tenant ++ " " ++ Text.padLeft 10 count

private def forEach {α : Type} (work : α → Program Unit) : List α → Program Unit
  | [] => .done ()
  | first :: rest => do
    work first
    forEach work rest

/-- One pass of a command, at readings of the clock. -/
def program (engine : Engine) (queuedOn now : Instant) : Command → Program Unit
  | .size queue => do
    let count ← Engine.size queue
    print (Nat.repr count)
  | .tenants queue => do
    let registered ← Engine.activeTenants queue
    print ("Active tenants: " ++ queue)
    if registered.isEmpty then print "  (No tenants)"
    else
      print (tenantLine "TENANT" "IN FLIGHT")
      forEach (fun entry => print (tenantLine entry.1.name (Int.repr entry.2))) registered
  | .push arguments => do
    engine.enqueue arguments.queue arguments.taskType arguments.tenant
      (Bytes.ofText arguments.payload) arguments.priority queuedOn now
    print ("Queued " ++ arguments.taskType ++ " for tenant " ++ arguments.tenant.name ++ " on '" ++
      arguments.queue ++ "' (" ++ arguments.priority.name ++ " priority)")
  | .sweep queues _ => do
    let count ← engine.sweep false (queues.map fun queue => (queue, now))
    print ("Requeued " ++ Nat.repr count ++ " expired tasks")
    forEach (fun queue => do
      let pending ← Engine.size queue
      print ("  " ++ queue ++ ": " ++ Nat.repr pending ++ " pending")) queues

end Command
end TenantQueue
