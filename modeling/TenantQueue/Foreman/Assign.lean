import TenantQueue.Foreman.Basic

/-! The steps of a foreman's assigner. It takes the worker at the front of the line, pops a
task for it and puts the task into the worker's slot. Without a task the worker goes to the
back of the line, and the assigner pauses. -/
namespace TenantQueue.Foreman
variable {σ : Type}

inductive SlotState where
  | vacant
  | taken
  | closed
  | unknown
  deriving DecidableEq

def slotState (foreman : Foreman) (index : Nat) : SlotState :=
  match foreman.workers[index]? with
  | none => .unknown
  | some worker =>
    if worker.phase.isOver then .closed
    else if worker.slot.isSome then .taken
    else .vacant

def assignerCanAdvance (foreman : Foreman) (elapsed : Nat) : Bool :=
  match foreman.assigner with
  | .listening => foreman.isStopping || !foreman.idle.isEmpty
  | .assigning index _ => foreman.slotState index != .taken
  | .pausing till => foreman.isStopping || till ≤ elapsed
  | .ended => false
  | .lost _ => false
  | _ => true

/-- Puts a popped task that no worker can take back on the queue, and gives its slot back. -/
def handBack (foreman : Foreman) (task : Task) : Program Unit := do
  let queue := foreman.config.queue
  match ← (foreman.engine.enqueueAt queue task.tenant task task.queuedOn .normal).attempt with
  | .ok () => pure ()
  | .error failure =>
    .log .error ("Failed to re-queue " ++ task.description ++ " on " ++ queue ++ ": " ++
      failure.message)
  Engine.releaseSlot queue task.tenant

def returnIdle (foreman : Foreman) (index elapsed : Nat) : Foreman × List Notice :=
  let pausing := { foreman with
    assigner := .pausing (elapsed + foreman.config.pollInterval.milliseconds) }
  if foreman.idle.length < foreman.config.poolSize then
    ({ pausing with idle := foreman.idle ++ [index] }, [])
  else
    (pausing,
      [.log .debug ("Could not return worker " ++ Nat.repr index ++ " to the idle pool")])

/-- Puts a task into a worker's slot, or hands it back if the worker is gone. -/
def assign (foreman : Foreman) (index : Nat) (task : Task) : Foreman × List Notice :=
  match foreman.slotState index with
  | .vacant =>
    ({ foreman with
        assigner := .listening
        workers := foreman.workers.modify index fun worker => { worker with slot := some task } },
      [])
  | .taken => (foreman, [])
  | .closed =>
    ({ foreman with assigner := .handingBack (foreman.handBack task) },
      [.log .error ("Worker " ++ Nat.repr index ++ " on " ++ foreman.config.queue ++
        " is gone, re-queueing task")])
  | .unknown =>
    ({ foreman with assigner := .handingBack (foreman.handBack task) },
      [.log .error ("Unknown worker index " ++ Nat.repr index ++ " on " ++ foreman.config.queue)])

def stopAssigner (foreman : Foreman) : Foreman × List Notice :=
  ({ foreman with assigner := .ended },
    [.log .debug ("Assignment loop for " ++ foreman.config.queue ++ " stopped")])

def advanceAssigner (backend : Backend σ) (moment : Moment) (foreman : Foreman) (state : σ) :
    Foreman × List Notice × σ :=
  let enter (phase : AssignerPhase) : Foreman := { foreman with assigner := phase }
  match foreman.assigner with
  | .starting =>
    (enter .listening,
      [.log .debug ("Assignment loop for " ++ foreman.config.queue ++ " starting")], state)
  | .listening =>
    if foreman.isStopping then
      let (stopped, notices) := foreman.stopAssigner
      (stopped, notices, state)
    else
      match foreman.idle with
      | [] => (foreman, [], state)
      | index :: line => ({ enter (.holding index) with idle := line }, [], state)
  | .holding index =>
    if foreman.isStopping then
      let (stopped, notices) := foreman.stopAssigner
      (stopped, notices, state)
    else (enter (.popping index (Engine.next foreman.config.queue)), [], state)
  | .popping index program =>
    match program.outcome? with
    | none =>
      let (program, notices, state) := program.step backend state
      (enter (.popping index program), notices, state)
    | some (.ok (some task)) => (enter (.assigning index task), [], state)
    | some (.ok none) =>
      let (pausing, notices) := foreman.returnIdle index moment.elapsed
      (pausing, notices, state)
    | some (.failed failure) =>
      let (pausing, notices) := foreman.returnIdle index moment.elapsed
      (pausing,
        .log .error ("Failed to pop from " ++ foreman.config.queue ++ ": " ++ failure.message) ::
          notices, state)
    | some (.crashed crash) => (enter (.lost crash), [], state)
  | .assigning index task =>
    let (assigned, notices) := foreman.assign index task
    (assigned, notices, state)
  | .handingBack program =>
    match program.outcome? with
    | none =>
      let (program, notices, state) := program.step backend state
      (enter (.handingBack program), notices, state)
    | some (.crashed crash) => (enter (.lost crash), [], state)
    | some _ => (enter .listening, [], state)
  | .pausing till =>
    if foreman.isStopping then
      let (stopped, notices) := foreman.stopAssigner
      (stopped, notices, state)
    else if till ≤ moment.elapsed then (enter .listening, [], state)
    else (foreman, [], state)
  | .ended => (foreman, [], state)
  | .lost _ => (foreman, [], state)

end TenantQueue.Foreman
