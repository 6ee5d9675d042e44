import TenantQueue.Proofs.Engine.Logging
import TenantQueue.Proofs.Foreman.Places
import TenantQueue.Proofs.Metrics

/-! How a task is executed, turn by turn: a worker takes it on, its handler works on it if there is one, the
worker has the slot of the task given back, and counts the result. Nothing is supposed of the store. -/
namespace TenantQueue

namespace Program
variable {α σ : Type}

def asked? : Program α → Option Call
  | call request _ => some request
  | serve queue _ => some (.pop queue)
  | _ => none

theorem step_state (backend : Backend σ) (program : Program α) (state : σ) :
    (program.step backend state).2.2 =
      program.asked?.elim state fun request => (backend.perform request state).2 := by
  cases program with
  | call request next =>
    simp only [step, asked?, Option.elim_some]
    split <;> simp only [*]
  | serve queue next =>
    simp only [step, asked?, Option.elim_some]
    split <;> simp only [*]
  | _ => rfl

theorem asked?_silent {program : Program α} (silent : program.Makes fun _ => False) :
    program.asked? = none := by
  cases program with
  | call request next => exact silent.1.elim
  | serve queue next => exact silent.1.elim
  | _ => rfl

end Program

namespace TaskResult

def isHandled : TaskResult → Bool
  | unhandled => false
  | _ => true

def isSuccess : TaskResult → Bool
  | succeeded => true
  | _ => false

def isFailure : TaskResult → Bool
  | failed _ => true
  | _ => false

def isCrash : TaskResult → Bool
  | crashed _ => true
  | _ => false

def observation (result : TaskResult) (queue taskType : String) (seconds : Double) : Observation :=
  match result.reason? with
  | none => .handled queue taskType seconds
  | some reason => .failed queue taskType reason

end TaskResult

inductive Job.Progress.Reaches {σ : Type} (backend : Backend σ) : Nat → Job.Progress → Job.Progress → Prop
  | here (progress : Job.Progress) : Reaches backend 0 progress progress
  | step {steps : Nat} {first middle : Job.Progress} (reaches : Reaches backend steps first middle)
    (moment : Moment) (stopping : Bool) (state : σ) :
    Reaches backend (steps + 1) first (middle.advance backend moment stopping state).1

/-- What is done in one turn for a task that a worker executes. -/
inductive Act where
  /-- The worker takes the task on, and sets a handler to work on it if there is one. -/
  | begins (task : Task) (invoked : Bool)
  | works
  | sees (ending : Job.Ending)
  | calls (request : Call)
  | ends (task : Task) (result : TaskResult)

namespace Act

def isBeginning : Act → Bool
  | begins _ _ => true
  | _ => false

def outcome? : Act → Option (Task × TaskResult)
  | ends task result => some (task, result)
  | _ => none

end Act

structure WorkerAct where
  worker : Nat
  act : Act

namespace WorkerAct

def of (worker : Nat) (workerActs : List WorkerAct) : List Act :=
  workerActs.filterMap fun workerAct => if workerAct.worker = worker then some workerAct.act else none

def outcomes (workerActs : List WorkerAct) : List (Task × TaskResult) :=
  workerActs.filterMap fun workerAct => workerAct.act.outcome?

def results (workerActs : List WorkerAct) : List TaskResult := (outcomes workerActs).map Prod.snd

def begun (workerActs : List WorkerAct) : Nat :=
  workerActs.countP fun workerAct => workerAct.act.isBeginning

@[simp] theorem of_append (worker : Nat) (first second : List WorkerAct) :
    of worker (first ++ second) = of worker first ++ of worker second :=
  List.filterMap_append

@[simp] theorem outcomes_append (first second : List WorkerAct) :
    outcomes (first ++ second) = outcomes first ++ outcomes second :=
  List.filterMap_append

@[simp] theorem results_append (first second : List WorkerAct) :
    results (first ++ second) = results first ++ results second := by
  simp [results]

@[simp] theorem begun_append (first second : List WorkerAct) :
    begun (first ++ second) = begun first + begun second :=
  List.countP_append

end WorkerAct

/-- The execution of a task. The handler takes so many steps and ends in some way, if there is one. -/
structure Performance where
  task : Task
  handling : Option (Nat × Job.Ending)

namespace Performance

def result (performance : Performance) : TaskResult :=
  performance.handling.elim .unhandled fun handled => .ofEnding handled.2

/-- What is done before the worker has the slot of the task given back. -/
def opening (performance : Performance) : List Act :=
  .begins performance.task performance.handling.isSome ::
    performance.handling.elim [] fun handled => List.replicate handled.1 .works ++ [.sees handled.2]

def giving (queue : String) (performance : Performance) : Act :=
  .calls (.release queue performance.task.tenant)

def acts (queue : String) (performance : Performance) : List Act :=
  performance.opening ++ [performance.giving queue, .ends performance.task performance.result]

/-- The handler is the one that is registered for the task, and ends as its work on the task does. -/
def Proper {σ : Type} (backend : Backend σ) (registry : Registry) (context : HandlerContext)
    (performance : Performance) : Prop :=
  match performance.handling with
  | none => registry.get? performance.task.taskType = none
  | some (steps, ending) => ∃ handler last,
    registry.get? performance.task.taskType = some handler ∧
      Job.Progress.Reaches backend steps (.ready (handler context performance.task)) last ∧
      last.ending? = some ending

end Performance

namespace WorkerPhase

def isEngaged : WorkerPhase → Bool
  | handling _ _ => true
  | releasing _ _ _ => true
  | lost _ => true
  | _ => false

end WorkerPhase

section
variable {σ : Type} (backend : Backend σ) (registry : Registry) (context : HandlerContext)

/-- What one turn, of whomever it is, makes of the phase of a worker, and what is done in it. -/
inductive PhaseTurn : WorkerPhase → Option Act → WorkerPhase → Prop
  | stays (phase : WorkerPhase) : PhaseTurn phase none phase
  | rests {phase next : WorkerPhase} (idle : phase.isEngaged = false) (still : next.isEngaged = false) :
    PhaseTurn phase none next
  | takes {phase : WorkerPhase} (idle : phase.isEngaged = false) (task : Task) (since : Nat) (leaving : Bool)
    (handler : Handler) (known : registry.get? task.taskType = some handler) :
    PhaseTurn phase (some (.begins task true))
      (.handling ⟨task, since, leaving⟩ (.ready (handler context task)))
  | refuses {phase : WorkerPhase} (idle : phase.isEngaged = false) (task : Task) (since : Nat)
    (leaving : Bool) (unknown : registry.get? task.taskType = none) :
    PhaseTurn phase (some (.begins task false))
      (.releasing ⟨task, since, leaving⟩ .unhandled (Engine.releaseSlot context.queue task.tenant))
  | works (execution : Execution) (progress : Job.Progress) (moment : Moment) (stopping : Bool) (state : σ) :
    PhaseTurn (.handling execution progress) (some .works)
      (.handling execution (progress.advance backend moment stopping state).1)
  | sees (execution : Execution) (progress : Job.Progress) (ending : Job.Ending)
    (ended : progress.ending? = some ending) :
    PhaseTurn (.handling execution progress) (some (.sees ending))
      (.releasing execution (.ofEnding ending)
        (Engine.releaseSlot context.queue execution.task.tenant))
  | proceeds (execution : Execution) (result : TaskResult) (program : Program Unit) (state : σ)
    (unended : program.outcome? = none) :
    PhaseTurn (.releasing execution result program) (program.asked?.map .calls)
      (.releasing execution result (program.step backend state).1)
  | ends (execution : Execution) (result : TaskResult) (program : Program Unit) (phase : WorkerPhase)
    (ended : program.outcome?.isSome) (still : phase.isEngaged = false) :
    PhaseTurn (.releasing execution result program) (some (.ends execution.task result)) phase
  | breaks (execution : Execution) (result : TaskResult) (program : Program Unit) (crash : Crash)
    (ended : program.outcome?.isSome) :
    PhaseTurn (.releasing execution result program) none (.lost crash)

inductive Ongoing : WorkerPhase → List Act → Prop
  | rests (phase : WorkerPhase) (idle : phase.isEngaged = false) : Ongoing phase []
  | handling (execution : Execution) (progress : Job.Progress) (steps : Nat) (handler : Handler)
    (known : registry.get? execution.task.taskType = some handler)
    (reaches : Job.Progress.Reaches backend steps (.ready (handler context execution.task)) progress) :
    Ongoing (.handling execution progress)
      (.begins execution.task true :: List.replicate steps .works)
  | releasing (execution : Execution) (performance : Performance) (own : performance.task = execution.task)
    (proper : performance.Proper backend registry context) :
    Ongoing (.releasing execution performance.result
      (Engine.releaseSlot context.queue execution.task.tenant)) performance.opening
  | released (execution : Execution) (performance : Performance) (program : Program Unit)
    (own : performance.task = execution.task) (proper : performance.Proper backend registry context)
    (silent : program.Makes fun _ => False) :
    Ongoing (.releasing execution performance.result program)
      (performance.opening ++ [performance.giving context.queue])
  | lost (crash : Crash) (performance : Performance) (proper : performance.Proper backend registry context) :
    Ongoing (.lost crash) (performance.opening ++ [performance.giving context.queue])

/-- A worker has executed tasks one after the other, and may be engaged in another one. -/
def Worker.History (phase : WorkerPhase) (acts : List Act) : Prop :=
  ∃ (performances : List Performance) (ongoing : List Act),
    acts = performances.flatMap (Performance.acts context.queue) ++ ongoing ∧
      (∀ performance ∈ performances, performance.Proper backend registry context) ∧
      Ongoing backend registry context phase ongoing

variable {backend registry context}

variable (backend) in
theorem Engine.releaseSlot_asks (queue : String) (tenant : Tenant) (state : σ) :
    (releaseSlot queue tenant).asked? = some (.release queue tenant) ∧
      (releaseSlot queue tenant).outcome? = none ∧
      ((releaseSlot queue tenant).step backend state).1.Makes fun _ => False := by
  refine ⟨rfl, rfl, ?_⟩
  obtain ⟨next, gives, after⟩ := releaseSlot_eq queue tenant
  rw [gives, Program.step]
  split
  · exact (after _).1
  · exact (after _).1
  · trivial

theorem Ongoing.turn {phase next : WorkerPhase} {act : Option Act} {ongoing : List Act}
    (now : Ongoing backend registry context phase ongoing)
    (turn : PhaseTurn backend registry context phase act next) :
    Ongoing backend registry context next (ongoing ++ act.toList) ∨
      ∃ performance : Performance, performance.Proper backend registry context ∧
        ongoing ++ act.toList = performance.acts context.queue ∧ next.isEngaged = false := by
  have nothing (idle : phase.isEngaged = false) : ongoing = [] := by
    cases now with
    | rests phase _ => rfl
    | _ => contradiction
  cases turn with
  | stays phase =>
    rw [Option.toList_none, List.append_nil]
    exact Or.inl now
  | rests idle still =>
    obtain rfl := nothing idle
    exact Or.inl (.rests next still)
  | takes idle task since leaving handler known =>
    obtain rfl := nothing idle
    exact Or.inl (.handling ⟨task, since, leaving⟩ _ 0 handler known (.here _))
  | refuses idle task since leaving unknown =>
    obtain rfl := nothing idle
    exact Or.inl (.releasing ⟨task, since, leaving⟩ ⟨task, none⟩ rfl unknown)
  | works execution progress moment stopping state =>
    left
    cases now with
    | rests _ idle => contradiction
    | handling _ _ steps handler known reaches =>
      have further := Ongoing.handling execution _ (steps + 1) handler known (reaches.step moment stopping state)
      rwa [List.replicate_succ'] at further
  | sees execution progress ending ended =>
    left
    cases now with
    | rests _ idle => contradiction
    | handling _ _ steps handler known reaches =>
      exact .releasing execution ⟨execution.task, some (steps, ending)⟩ rfl
        ⟨handler, progress, known, reaches, ended⟩
  | proceeds execution result program state unended =>
    left
    cases now with
    | rests _ idle => contradiction
    | releasing _ performance own proper =>
      obtain ⟨asks, -, silent⟩ :=
        Engine.releaseSlot_asks backend context.queue execution.task.tenant state
      rw [asks, ← own]
      exact .released execution performance _ own proper (own ▸ silent)
    | released _ performance _ own proper silent =>
      rw [Program.asked?_silent silent, Option.map_none, Option.toList_none, List.append_nil]
      exact .released execution performance _ own proper (Program.step_silent backend program state silent)
  | ends execution result program next ended still =>
    right
    cases now with
    | rests _ idle => contradiction
    | releasing _ performance own proper => contradiction
    | released _ performance _ own proper silent =>
      refine ⟨performance, proper, ?_, still⟩
      rw [← own, List.append_assoc]
      rfl
  | breaks execution result program crash ended =>
    left
    cases now with
    | rests _ idle => contradiction
    | releasing _ performance own proper => contradiction
    | released _ performance _ own proper silent =>
      rw [Option.toList_none, List.append_nil]
      exact .lost crash performance proper

theorem Worker.History.turn {phase next : WorkerPhase} {act : Option Act} {acts : List Act}
    (history : Worker.History backend registry context phase acts)
    (turn : PhaseTurn backend registry context phase act next) :
    Worker.History backend registry context next (acts ++ act.toList) := by
  obtain ⟨performances, ongoing, rfl, proper, now⟩ := history
  rcases now.turn turn with further | ⟨performance, fits, finished, still⟩
  · exact ⟨performances, ongoing ++ act.toList, List.append_assoc .., proper, further⟩
  · refine ⟨performances ++ [performance], [], ?_, ?_, .rests next still⟩
    · rw [List.append_assoc, finished, List.flatMap_append, List.flatMap_singleton, List.append_nil]
    · exact List.forall_mem_append.mpr ⟨proper, List.forall_mem_singleton.mpr fits⟩

end
end TenantQueue
