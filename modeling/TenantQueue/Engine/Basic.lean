import TenantQueue.Config
import TenantQueue.Priority
import TenantQueue.Program
import TenantQueue.Task.Record

/-! The queue engine: tasks enter a queue under a tenant, and leave it for the tenant that
has the fewest in flight. -/
namespace TenantQueue

structure Engine where
  config : Config
  deriving Inhabited

namespace Engine

def standard : Engine := ⟨Config.standard⟩

def ofConfig (config : Config) : Except Failure Engine := do
  config.validate
  return ⟨config⟩

def shown (engine : Engine) : String :=
  "TaskQueue \x7b config: " ++ engine.config.shown ++ ", .. \x7d"

def check (engine : Engine) (queue : String) (task : Task) : Except Failure Unit :=
  if queue.isEmpty then .error (.validation .emptyQueue)
  else if task.taskType.isEmpty then .error (.validation .emptyTaskType)
  else if engine.config.payloadLimit < task.payload.length then
    .error (.validation (.oversized engine.config.payloadLimit task.payload.length))
  else .ok ()

def enqueueAt (engine : Engine) (queue : String) (tenant : Tenant) (task : Task) (time : Instant)
    (priority : Priority) : Program Unit := do
  .ofExcept (engine.check queue task)
  .perform (.push queue tenant task.encode (score time priority))
  .log .debug ("Queued " ++ task.description ++ " on " ++ queue ++
    " (priority " ++ priority.name ++ ")")

/-- Enters a new task. The clock is read once for the task and once more for its score. -/
def enqueue (engine : Engine) (queue taskType : String) (tenant : Tenant) (payload : Bytes)
    (priority : Priority) (queuedOn time : Instant) : Program Unit :=
  engine.enqueueAt queue tenant ⟨taskType, tenant, payload, queuedOn, 0⟩ time priority

def size (queue : String) : Program Nat := .perform (.size queue)

def complete (queue : String) (tenant : Tenant) : Program Unit := .perform (.release queue tenant)

/-- Gives back a slot as well as the store lets it. A failure is logged. -/
def releaseSlot (queue : String) (tenant : Tenant) : Program Unit := do
  match ← (complete queue tenant).attempt with
  | .ok () => return
  | .error failure =>
    .log .error ("Failed to release slot for tenant " ++ tenant.name ++ " on " ++ queue ++ ": " ++
      failure.message)

/-- The task of a popped record. The slot that was taken for an unreadable one is given back. -/
def readPopped (queue : String) (tenant : Tenant) (record : Bytes) : Program Task :=
  match Task.decode record with
  | .ok task => .done task
  | .error failure => do
    releaseSlot queue tenant
    .failed failure

/-- The next task, for the tenant that has the fewest in flight. -/
def next (queue : String) : Program (Option Task) :=
  .serve queue fun
    | .error failure => .failed failure
    | .ok none => .done none
    | .ok (some (tenant, record)) => do
      let task ← readPopped queue tenant record
      return some task

def activeTenants (queue : String) : Program (List (Tenant × Int)) := .perform (.activeTenants queue)

def inFlight (queue : String) (tenant : Tenant) : Program (Option Int) := do
  let registered ← activeTenants queue
  return (registered.find? fun entry => entry.1 = tenant).map Prod.snd

end Engine
end TenantQueue
