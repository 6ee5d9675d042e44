import TenantQueue.Engine.Basic

/-! The durable path: a task that is being worked on has an entry with a deadline and a record
beside it. An entry whose deadline has come is delivered again after a delay. -/
namespace TenantQueue.Engine

def rollBack (queue : String) (tenant : Tenant) (fingerprint : Fingerprint) : Program Unit := do
  match ← (Program.perform (.removeProcessing queue tenant fingerprint)).attempt with
  | .ok () => return
  | .error failure =>
    .log .error ("Failed to roll back processing entry " ++ fingerprint.text ++ " on " ++ queue ++
      ": " ++ failure.message)

/-- Enters a task under its fingerprint until a deadline. An entry already present keeps its own. -/
def beginProcessing (queue : String) (tenant : Tenant) (task : Task) (span : Duration)
    (now : Instant) : Program Fingerprint := do
  let fingerprint := task.fingerprint
  let deadline := now.epochSeconds.add span.seconds
  let added ← Program.perform (.addProcessing queue tenant fingerprint deadline)
  match ← (Program.perform (.setPayload queue fingerprint task.encode)).attempt with
  | .error failure =>
    if added then rollBack queue tenant fingerprint
    .failed failure
  | .ok () =>
    .log .debug ("Processing " ++ task.description ++ " on " ++ queue ++ " until +" ++ span.text ++
      " (" ++ fingerprint.text ++ ")")
    return fingerprint

def dropEntry (queue : String) (tenant : Tenant) (fingerprint : Fingerprint) : Program Unit := do
  Program.perform (.removeProcessing queue tenant fingerprint)
  Program.perform (.deletePayload queue fingerprint)

/-- The empty fingerprint names no entry. -/
def endProcessing (queue : String) (tenant : Tenant) (fingerprint : Fingerprint) : Program Unit :=
  if fingerprint.isEmpty then .done () else dropEntry queue tenant fingerprint

def storedTask (queue : String) (tenant : Tenant) (fingerprint : Fingerprint) :
    Program (Option Task) := do
  match ← Program.perform (.getPayload queue fingerprint) with
  | none =>
    .log .warn ("Dropping processing entry " ++ fingerprint.text ++ " for tenant " ++ tenant.name ++
      " on " ++ queue ++ ": stored task missing")
    return none
  | some record =>
    match Task.decode record with
    | .ok task => return some task
    | .error failure =>
      .log .warn ("Dropping unreadable processing entry " ++ fingerprint.text ++ " for tenant " ++
        tenant.name ++ " on " ++ queue ++ ": " ++ failure.message)
      return none

/-- When a task is due again. A delay too long to be added counts as none. -/
def redeliveryTime? (now : Instant) (delay : Duration) : Option Instant :=
  if delay.nanoseconds ≤ Instant.longestSpan then now.plus? delay else now.plus? ⟨0⟩

/-- Enters a task again with one error more, and gives back the slot of the lost delivery. -/
def requeue (engine : Engine) (queue : String) (tenant : Tenant) (task : Task) (now : Instant) :
    Program Unit :=
  let failed := { task with errorCount := task.errorCount + 1 }
  let delay := engine.config.backoff failed.errorCount
  match redeliveryTime? now delay with
  | none => .crashed .beyondCalendar
  | some time => do
    engine.enqueueAt queue tenant failed time .normal
    complete queue tenant
    .log .info ("Requeued expired " ++ failed.description ++ " on " ++ queue ++ " in " ++ delay.text)

def requeueEntry (engine : Engine) (queue : String) (tenant : Tenant) (now : Instant)
    (fingerprint : Fingerprint) : Program Nat := do
  match ← storedTask queue tenant fingerprint with
  | none =>
    dropEntry queue tenant fingerprint
    return 0
  | some task =>
    engine.requeue queue tenant task now
    dropEntry queue tenant fingerprint
    return 1

def total {α : Type} (work : α → Program Nat) : List α → Program Nat
  | [] => .done 0
  | first :: rest => do
    let count ← work first
    let others ← total work rest
    return count + others

def requeueExpired (engine : Engine) (queue : String) (now : Instant) : Program Nat := do
  let registered ← activeTenants queue
  total (fun entry => do
    let expired ← Program.perform (.expiredProcessing queue entry.1 now.epochSeconds)
    total (engine.requeueEntry queue entry.1 now) expired) registered

end TenantQueue.Engine
