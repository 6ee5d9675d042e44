import TenantQueue.Command.Arguments
import TenantQueue.Metrics.Exposition
import TenantQueue.Timeline.Service

/-! Sessions: an engine on a fresh store in memory, with handlers and foremen, operated step
by step. -/
namespace TenantQueue

inductive Step where
  | enqueue (queue taskType : String) (tenant : Tenant) (payload : Bytes) (priority : Priority)
  | enqueueAt (queue : String) (tenant : Tenant) (task : Task) (time : Instant)
      (priority : Priority)
  | size (queue : String)
  | activeTenants (queue : String)
  | inFlight (queue : String) (tenant : Tenant)
  | next (queue : String)
  | drain (queue : String)
  | complete (queue : String) (tenant : Tenant)
  | beginProcessing (queue : String) (tenant : Tenant) (task : Task) (span : Duration)
  | endProcessing (queue : String) (tenant : Tenant) (fingerprint : Fingerprint)
  | requeueExpired (queue : String) (now : Instant)
  | call (call : Call)
  | registry (taskTypes : List String)
  | invoke (queue : String) (task : Task)
  | hire (config : ForemanConfig) (measured : Bool)
  | start (foreman : Nat)
  | stop (foreman : Nat)
  | stats (foreman : Nat)
  | dismiss (foreman : Nat)
  | sleep (milliseconds : Nat)
  | sweep (queues : List String) (measured : Bool)
  | runSweeper (plan : SweepPlan) (milliseconds : Nat)
  | serve (foremen : List (ForemanConfig × Bool)) (sweeper : Option SweepPlan)
      (milliseconds : Nat)
  | gather
  | command (command : Command)
  | push (words : List String)

inductive Answer where
  | done
  | number (value : Int)
  | noNumber
  | tenants (registered : List (Tenant × Int))
  | task (task : Option Task)
  | drained (tasks : List Task)
  | fingerprint (fingerprint : Fingerprint)
  | reply (call : Call) (reply : call.Reply)
  | registry (registry : Registry) (present : List Bool)
  | noHandler
  | handled (context : HandlerContext)
  | stats (stats : ForemanStats)
  | served (before after : List ForemanStats)
  | text (text : String)
  | printed (output : String) (problem : Option String)
  | usage (error : UsageError)
  | failed (failure : Failure)
  | crashed (crash : Crash)
  | noForeman

structure Session where
  engine : Engine
  registry : Registry
  timeline : Timeline
  /-- The places of the foremen that were hired, none for one that was dismissed. -/
  hired : List (Option Nat)
  popped : List Task

namespace Session

def registerAll (handlers : List (String × Handler)) : Registry × List Notice :=
  handlers.foldl (fun (registry, notices) handler =>
    let (registry, more) := registry.register handler.1 handler.2
    (registry, notices ++ more)) (.empty, [])

def begin (config : Config) (handlers : List (String × Handler)) (disruptions : Disruptions)
    (start : Instant) : Except Failure Session := do
  let engine ← Engine.ofConfig config
  let (registry, notices) := registerAll handlers
  return ⟨engine, registry, (Timeline.begin disruptions start).note notices, [], []⟩

/-- The pending tasks of a queue and its registered tenants, seen without a call. A registry that
cannot be read shows nothing. -/
def view (session : Session) (queue : String) : Nat × List (Tenant × Int) :=
  let state := session.timeline.store.store.queue queue
  (state.size.toOption.getD 0, state.activeTenants.toOption.getD [])

def takeNotices (session : Session) : List (Nat × Notice) × Session :=
  (session.timeline.notices.reverse,
    { session with timeline := { session.timeline with notices := [] } })

def answer {α : Type} (session : Session) (program : Program α) (word : α → Answer) :
    Answer × Session :=
  let (outcome, timeline) := session.timeline.perform program
  let answer := match outcome with
    | .ok value => word value
    | .failed failure => .failed failure
    | .crashed crash => .crashed crash
  (answer, { session with timeline })

def readings (session : Session) : Instant × Instant × Session :=
  let later := session.timeline.tick
  (session.timeline.reading, later.reading, { session with timeline := later.tick })

/-- Takes tasks until there is none, or up to a limit. Those taken before a failure are kept. -/
def drainFrom (queue : String) : Nat → List Task → Session → Answer × Session
  | 0, taken, session => (.drained taken.reverse, session)
  | limit + 1, taken, session =>
    let (outcome, timeline) := session.timeline.perform (Engine.next queue)
    let session := { session with timeline }
    match outcome with
    | .ok none => (.drained taken.reverse, session)
    | .ok (some task) =>
      drainFrom queue limit (task :: taken) { session with popped := session.popped ++ [task] }
    | .failed failure => (.failed failure, session)
    | .crashed crash => (.crashed crash, session)

def foreman? (session : Session) (number : Nat) : Option (Nat × Foreman) := do
  let place ← (← session.hired[number]?)
  let foreman ← session.timeline.foremen[place]?
  return (place, foreman)

private def printedLines (notices : List (Nat × Notice)) : List String :=
  notices.reverse.filterMap fun
    | (_, .printed line) => some (line ++ "\n")
    | _ => none

def carryOut (session : Session) (command : Command) : Answer × Session :=
  match command.refusal? with
  | some refusal => (.printed "" (some refusal), session)
  | none =>
    let (queuedOn, now, session) := session.readings
    let before := session.timeline.notices
    let (outcome, timeline) := { session.timeline with notices := [] }.perform
      (command.program session.engine queuedOn now)
    let output := String.join (printedLines timeline.notices)
    let session := { session with timeline := { timeline with
      notices := timeline.notices ++ before } }
    match outcome with
    | .ok () => (.printed output none, session)
    | .failed failure => (.printed output (some failure.message), session)
    | .crashed crash => (.crashed crash, session)

def invoke (session : Session) (queue : String) (task : Task) : Answer × Session :=
  match session.registry.get? task.taskType with
  | none => (.noHandler, session)
  | some handler =>
    let context := HandlerContext.detached session.engine queue
    let (ending, timeline) :=
      session.timeline.runJob Timeline.fuel (.ready (handler context task))
    let answer := match ending with
      | .succeeded => .handled context
      | .failed failure => .failed failure
      | .crashed crash => .crashed crash
    (answer, { session with timeline })

def build (session : Session) (plan : ForemanConfig × Bool) : Except Failure Foreman :=
  Foreman.build plan.1 session.engine session.registry plan.2

def serve (session : Session) (plans : List (ForemanConfig × Bool)) (sweeper : Option SweepPlan)
    (milliseconds : Nat) : Except Failure (Answer × Session) := do
  let foremen ← plans.mapM session.build
  let (after, timeline) ← session.timeline.serve foremen
    (sweeper.map (Sweeper.ofPlan session.engine)) milliseconds
  return (.served (foremen.map Foreman.stats) after, { session with timeline })

def refusable (session : Session) : Except Failure (Answer × Session) → Answer × Session
  | .ok result => result
  | .error failure => (.failed failure, session)

def step (session : Session) : Step → Answer × Session
  | .enqueue queue taskType tenant payload priority =>
    let (queuedOn, now, session) := session.readings
    session.answer (session.engine.enqueue queue taskType tenant payload priority queuedOn now)
      fun _ => .done
  | .enqueueAt queue tenant task time priority =>
    session.answer (session.engine.enqueueAt queue tenant task time priority) fun _ => .done
  | .size queue => session.answer (Engine.size queue) fun count => .number count
  | .activeTenants queue => session.answer (Engine.activeTenants queue) .tenants
  | .inFlight queue tenant =>
    session.answer (Engine.inFlight queue tenant) fun count => count.elim .noNumber .number
  | .next queue =>
    match session.answer (Engine.next queue) .task with
    | (.task (some task), session) =>
      (.task (some task), { session with popped := session.popped ++ [task] })
    | result => result
  | .drain queue => drainFrom queue ((session.view queue).1 + 1) [] session
  | .complete queue tenant => session.answer (Engine.complete queue tenant) fun _ => .done
  | .beginProcessing queue tenant task span =>
    session.answer (Engine.beginProcessing queue tenant task span session.timeline.reading)
      .fingerprint
  | .endProcessing queue tenant fingerprint =>
    session.answer (Engine.endProcessing queue tenant fingerprint) fun _ => .done
  | .requeueExpired queue now =>
    session.answer (session.engine.requeueExpired queue now) fun count => .number count
  | .call call => session.answer (.perform call) (.reply call)
  | .registry taskTypes =>
    (.registry session.registry (taskTypes.map session.registry.contains), session)
  | .invoke queue task => session.invoke queue task
  | .hire config measured =>
    session.refusable do
      let foreman ← session.build (config, measured)
      let (place, timeline) := session.timeline.addForeman foreman
      return (.number session.hired.length,
        { session with timeline, hired := session.hired ++ [some place] })
  | .start number =>
    match session.foreman? number with
    | none => (.noForeman, session)
    | some (place, foreman) =>
      session.refusable do
        let timeline ← session.timeline.startForeman place foreman
        return (.done, { session with timeline })
  | .stop number =>
    match session.foreman? number with
    | none => (.noForeman, session)
    | some (place, _) =>
      (.done, { session with timeline := session.timeline.stopForeman place })
  | .stats number =>
    match session.foreman? number with
    | none => (.noForeman, session)
    | some (_, foreman) => (.stats foreman.stats, session)
  | .dismiss number =>
    match session.hired[number]? with
    | none => (.noForeman, session)
    | some none => (.done, session)
    | some (some place) =>
      (.done, { session with
        timeline := session.timeline.dismissForeman place
        hired := session.hired.set number none })
  | .sleep milliseconds =>
    (.done, { session with timeline := session.timeline.sleep milliseconds })
  | .sweep queues measured =>
    let now := session.timeline.reading
    session.answer (session.engine.sweep measured (queues.map fun queue => (queue, now)))
      fun count => .number count
  | .runSweeper plan milliseconds =>
    match session.timeline.runSweeper (.ofPlan session.engine plan) milliseconds with
    | (none, timeline) => (.done, { session with timeline })
    | (some crash, timeline) => (.crashed crash, { session with timeline })
  | .serve foremen sweeper milliseconds =>
    session.refusable (session.serve foremen sweeper milliseconds)
  | .gather => (.text session.timeline.metrics.exposition, session)
  | .command command => session.carryOut command
  | .push words =>
    match Command.pushOfWords words with
    | .ok arguments => session.carryOut (.push arguments)
    | .error usage => (.usage usage, session)

end Session
end TenantQueue
