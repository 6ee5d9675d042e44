import TenantQueue.Foreman.Config
import TenantQueue.Handler.Registry

/-! A foreman: a line of idle workers, and an assigner that gives each task it pops to the
worker at the front of the line. -/
namespace TenantQueue

inductive Lifecycle where
  | created
  | started
  | stopping
  | stopped
  deriving DecidableEq

namespace Lifecycle

def name : Lifecycle → String
  | created => "created"
  | started => "started"
  | stopping => "stopping"
  | stopped => "stopped"

def title : Lifecycle → String
  | created => "Created"
  | started => "Started"
  | stopping => "Stopping"
  | stopped => "Stopped"

end Lifecycle

inductive TaskResult where
  | succeeded
  | failed (failure : Failure)
  | crashed (crash : Crash)
  | unhandled

namespace TaskResult

def ofEnding : Job.Ending → TaskResult
  | .succeeded => succeeded
  | .failed failure => failed failure
  | .crashed crash => crashed crash

def reason? : TaskResult → Option String
  | succeeded => none
  | failed _ => some "error"
  | crashed _ => some "panic"
  | unhandled => some "unhandled"

end TaskResult

/-- A task in a worker's hands since some moment. A worker that takes one after it has left the
line is leaving. -/
structure Execution where
  task : Task
  since : Nat
  leaving : Bool

inductive WorkerPhase where
  | starting
  /-- About to join the line of idle workers. -/
  | announcing
  | waiting
  /-- Takes what is left in its slot until the assigner is gone. -/
  | draining
  | handling (execution : Execution) (progress : Job.Progress)
  | releasing (execution : Execution) (result : TaskResult) (program : Program Unit)
  | ended
  | lost (crash : Crash)

structure Worker where
  slot : Option Task
  phase : WorkerPhase

inductive AssignerPhase where
  | starting
  | listening
  | holding (worker : Nat)
  | popping (worker : Nat) (program : Program (Option Task))
  | assigning (worker : Nat) (task : Task)
  | handingBack (program : Program Unit)
  | pausing (till : Nat)
  | ended
  | lost (crash : Crash)

/-- Natural numbers, which agree with counters of 64 bits below 2^64. -/
structure Counters where
  busy : Nat
  handled : Nat
  failed : Nat
  crashed : Nat
  unhandled : Nat
  slow : Nat
  deriving DecidableEq

structure Foreman where
  config : ForemanConfig
  engine : Engine
  registry : Registry
  measured : Bool
  lifecycle : Lifecycle
  counters : Counters
  workers : List Worker
  idle : List Nat
  assigner : AssignerPhase

structure ForemanStats where
  queue : String
  lifecycle : Lifecycle
  poolSize : Nat
  idle : Nat
  counters : Counters
  deriving DecidableEq

namespace WorkerPhase

def isOver : WorkerPhase → Bool
  | ended => true
  | lost _ => true
  | _ => false

end WorkerPhase

namespace AssignerPhase

/-- Assigns no more tasks, so that the line and all slots are closed. -/
def isOver : AssignerPhase → Bool
  | ended => true
  | lost _ => true
  | _ => false

end AssignerPhase

namespace Counters

def zero : Counters := ⟨0, 0, 0, 0, 0, 0⟩

/-- A task that somebody handled counts as handled, whatever the result. -/
def count (counters : Counters) : TaskResult → Counters
  | .succeeded => { counters with handled := counters.handled + 1 }
  | .failed _ => { counters with handled := counters.handled + 1, failed := counters.failed + 1 }
  | .crashed _ => { counters with handled := counters.handled + 1, crashed := counters.crashed + 1 }
  | .unhandled => { counters with unhandled := counters.unhandled + 1 }

end Counters

namespace Foreman

def build (config : ForemanConfig) (engine : Engine) (registry : Registry) (measured : Bool) :
    Except Failure Foreman := do
  config.validate
  return ⟨config, engine, registry, measured, .created, .zero, [], [], .starting⟩

def shown (foreman : Foreman) : String :=
  "Foreman \x7b config: " ++ foreman.config.shown ++ ", state: " ++ foreman.lifecycle.title ++
    ", .. \x7d"

def isRunning (foreman : Foreman) : Bool :=
  foreman.lifecycle = .started || foreman.lifecycle = .stopping

def isStopping (foreman : Foreman) : Bool :=
  foreman.lifecycle = .stopping || foreman.lifecycle = .stopped

def stats (foreman : Foreman) : ForemanStats :=
  ⟨foreman.config.queue, foreman.lifecycle, foreman.config.poolSize,
    if foreman.isRunning then foreman.config.poolSize - foreman.counters.busy else 0,
    foreman.counters⟩

def occupancy (foreman : Foreman) : List Notice :=
  if foreman.measured then
    [.observed (.workers foreman.config.queue (foreman.config.poolSize - foreman.counters.busy)
      foreman.counters.busy)]
  else []

def workerName (foreman : Foreman) (index : Nat) : String :=
  foreman.config.queue ++ "-worker-" ++ Nat.repr index

def start (foreman : Foreman) : Except Failure (Foreman × List Notice) :=
  match foreman.lifecycle with
  | .started => .error (.config (.alreadyStarted foreman.config.queue))
  | .stopping => .error .shutdown
  | .stopped => .error .shutdown
  | .created =>
    let started := { foreman with
      lifecycle := .started
      workers := List.replicate foreman.config.poolSize ⟨none, .starting⟩ }
    .ok (started,
      .log .info ("Starting foreman for " ++ foreman.config.queue ++ " with " ++
        Nat.repr foreman.config.poolSize ++ " workers") :: started.occupancy)

/-- Gives the stop signal. A foreman never started stops at once. -/
def requestStop (foreman : Foreman) : Foreman × List Notice :=
  match foreman.lifecycle with
  | .created => ({ foreman with lifecycle := .stopped }, [])
  | .stopped => (foreman, [])
  | _ => ({ foreman with lifecycle := .stopping },
      [.log .info ("Stopping foreman for " ++ foreman.config.queue)])

def isOver (foreman : Foreman) : Bool :=
  foreman.assigner.isOver && foreman.workers.all fun worker => worker.phase.isOver

def losses (foreman : Foreman) : List Notice :=
  let workers := foreman.workers.filterMap fun worker =>
    match worker.phase with
    | .lost crash => crash.message?
    | _ => none
  let assigner := match foreman.assigner with
    | .lost crash => crash.message?.toList
    | _ => []
  (workers ++ assigner).map fun message =>
    .log .error ("Foreman task for " ++ foreman.config.queue ++ " ended abnormally: panicked with " ++
      "message " ++ Text.quoted message)

def completeStop (foreman : Foreman) : Foreman × List Notice :=
  match foreman.lifecycle with
  | .stopping => ({ foreman with lifecycle := .stopped },
      foreman.losses ++ [.log .info ("Foreman for " ++ foreman.config.queue ++ " stopped")])
  | _ => (foreman, [])

/-- The work that goes on when a foreman is dropped: the handlers under way. -/
def handlersUnderWay (foreman : Foreman) : List Job.Progress :=
  foreman.workers.filterMap fun worker =>
    match worker.phase with
    | .handling _ progress => some progress
    | _ => none

def slotsHeld (foreman : Foreman) : List (Program Unit) :=
  foreman.workers.filterMap fun worker =>
    match worker.phase with
    | .handling execution _ =>
      some (Engine.releaseSlot foreman.config.queue execution.task.tenant)
    | .releasing _ _ program => some program
    | _ => none

end Foreman
end TenantQueue
