import TenantQueue.Foreman.Basic

/-! The steps of a foreman's workers. A worker joins the line, takes a task from its slot, has
it handled, gives its slot of the queue back, counts the result and joins the line again. -/
namespace TenantQueue.Foreman
variable {σ : Type}

def setWorker (foreman : Foreman) (index : Nat) (worker : Worker) : Foreman :=
  { foreman with workers := foreman.workers.set index worker }

/-- Whether a worker can take a step. One whose task is being handled waits for the end. -/
def workerCanAdvance (foreman : Foreman) (worker : Worker) : Bool :=
  match worker.phase with
  | .starting => true
  | .announcing => foreman.assigner.isOver || foreman.idle.length < foreman.config.poolSize
  | .waiting => worker.slot.isSome || foreman.assigner.isOver || foreman.isStopping
  | .draining => worker.slot.isSome || foreman.assigner.isOver
  | .handling _ progress => progress.ending?.isSome
  | .releasing _ _ _ => true
  | .ended => false
  | .lost _ => false

/-- Begins the execution of the task in a worker's slot. A task that nobody handles gives its
slot of the queue back at once. -/
def execute (foreman : Foreman) (index : Nat) (task : Task) (elapsed : Nat) (leaving : Bool) :
    Foreman × List Notice :=
  let execution : Execution := ⟨task, elapsed, leaving⟩
  let phase : WorkerPhase := match foreman.registry.get? task.taskType with
    | some handler =>
      .handling execution (.ready (handler
        ⟨foreman.engine, foreman.config.queue, foreman.workerName index⟩ task))
    | none =>
      .releasing execution .unhandled (Engine.releaseSlot foreman.config.queue task.tenant)
  let counters := { foreman.counters with busy := foreman.counters.busy + 1 }
  let busier := { foreman.setWorker index ⟨none, phase⟩ with counters }
  (busier, busier.occupancy)

def resultNotice (foreman : Foreman) (index : Nat) (task : Task) (span : Duration) :
    TaskResult → Notice
  | .succeeded =>
    .log .debug ("Worker " ++ foreman.workerName index ++ " handled " ++ task.description ++
      " in " ++ span.text)
  | .failed failure =>
    .log .error ("Worker " ++ foreman.workerName index ++ ": " ++ task.description ++
      " failed: " ++ failure.message)
  | .crashed crash =>
    .log .error ("Worker " ++ foreman.workerName index ++ ": " ++ task.description ++
      " panicked: " ++ (crash.message?.getD "non-string panic payload"))
  | .unhandled =>
    .log .error ("No handler registered for task type " ++ task.taskType ++ " on " ++
      foreman.config.queue)

def resultObservations (foreman : Foreman) (task : Task) (span : Duration) (result : TaskResult) :
    List Notice :=
  if foreman.measured then
    match result.reason? with
    | none => [.observed (.handled foreman.config.queue task.taskType span.seconds)]
    | some reason => [.observed (.failed foreman.config.queue task.taskType reason)]
  else []

def slowNotices (foreman : Foreman) (index : Nat) (task : Task) (span : Duration) : List Notice :=
  if foreman.config.slowThreshold < span then
    [.log .warn ("Worker " ++ foreman.workerName index ++ ": " ++ task.description ++ " took " ++
      span.text ++ " (threshold " ++ foreman.config.slowThreshold.text ++ ")")]
  else []

def account (foreman : Foreman) (index : Nat) (execution : Execution) (result : TaskResult)
    (elapsed : Nat) : Foreman × List Notice :=
  let span := Duration.ofMilliseconds (elapsed - execution.since)
  let counted := foreman.counters.count result
  let counters := { counted with
    slow := if foreman.config.slowThreshold < span then counted.slow + 1 else counted.slow
    busy := counted.busy - 1 }
  let done := { foreman with counters }
  (done, foreman.resultNotice index execution.task span result ::
    (foreman.slowNotices index execution.task span ++
      foreman.resultObservations execution.task span result ++ done.occupancy))

def advanceWorker (backend : Backend σ) (moment : Moment) (index : Nat) (worker : Worker)
    (foreman : Foreman) (state : σ) : Foreman × List Notice × σ :=
  let enter (phase : WorkerPhase) : Foreman := foreman.setWorker index { worker with phase }
  match worker.phase with
  | .starting =>
    (enter .announcing, [.log .info ("Worker " ++ foreman.workerName index ++ " starting")], state)
  | .announcing =>
    if foreman.assigner.isOver then (enter .draining, [], state)
    else if foreman.idle.length < foreman.config.poolSize then
      ({ enter .waiting with idle := foreman.idle ++ [index] }, [], state)
    else (foreman, [], state)
  | .waiting =>
    match worker.slot with
    | some task =>
      let (busier, notices) := foreman.execute index task moment.elapsed false
      (busier, notices, state)
    | none =>
      if foreman.assigner.isOver || foreman.isStopping then (enter .draining, [], state)
      else (foreman, [], state)
  | .draining =>
    match worker.slot with
    | some task =>
      let (busier, notices) := foreman.execute index task moment.elapsed true
      (busier, notices, state)
    | none =>
      if foreman.assigner.isOver then
        (enter .ended, [.log .info ("Worker " ++ foreman.workerName index ++ " stopped")], state)
      else (foreman, [], state)
  | .handling execution progress =>
    match progress.ending? with
    | some ending =>
      (enter (.releasing execution (.ofEnding ending)
        (Engine.releaseSlot foreman.config.queue execution.task.tenant)), [], state)
    | none => (foreman, [], state)
  | .releasing execution result program =>
    match program.outcome? with
    | none =>
      let (program, notices, state) := program.step backend state
      (enter (.releasing execution result program), notices, state)
    | some (.crashed crash) => (enter (.lost crash), [], state)
    | some _ =>
      let (done, notices) :=
        (enter (if execution.leaving then .draining else .announcing)).account index execution
          result moment.elapsed
      (done, notices, state)
  | .ended => (foreman, [], state)
  | .lost _ => (foreman, [], state)

def advanceHandler (backend : Backend σ) (moment : Moment) (index : Nat) (worker : Worker)
    (foreman : Foreman) (state : σ) : Foreman × List Notice × σ :=
  match worker.phase with
  | .handling execution progress =>
    let (progress, notices, state) := progress.advance backend moment foreman.isStopping state
    (foreman.setWorker index { worker with phase := .handling execution progress }, notices, state)
  | _ => (foreman, [], state)

end TenantQueue.Foreman
