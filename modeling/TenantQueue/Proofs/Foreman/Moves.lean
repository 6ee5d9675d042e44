import TenantQueue.Foreman.Step
import TenantQueue.Proofs.Program
import Mathlib.Data.List.Basic

/-! What the members of a foreman can do in one step, and what they do to tasks by it: a task is popped
for a worker, executed by it, and completed by it. -/
namespace TenantQueue

theorem Engine.next_calm (queue : String) : (Engine.next queue).Calm := by
  intro reply
  cases reply with
  | error failure => trivial
  | ok found =>
    cases found with
    | none => trivial
    | some pair =>
      refine Program.calm_bind _ _ ?_ fun _ => trivial
      unfold readPopped
      split
      · trivial
      · refine Program.calm_bind _ _ ?_ fun _ => trivial
        intro reply
        cases reply <;> trivial

theorem Engine.releaseSlot_eq (queue : String) (tenant : Tenant) :
    ∃ next, Engine.releaseSlot queue tenant = .call (.release queue tenant) next ∧
      ∀ reply, (next reply).Makes (fun _ => False) ∧ (next reply).Calm := by
  refine ⟨_, rfl, ?_⟩
  intro reply
  cases reply <;> exact ⟨trivial, trivial⟩

inductive Milestone.Kind where
  | popped
  | executed
  | completed
  deriving DecidableEq

/-- A task is popped for a worker, executed by it, or completed by it. -/
structure Milestone where
  kind : Milestone.Kind
  worker : Nat
  task : Task

namespace Milestone

def tasks (kind : Kind) (worker : Nat) (milestones : List Milestone) : List Task :=
  milestones.filterMap fun milestone =>
    if milestone.kind = kind ∧ milestone.worker = worker then some milestone.task else none

variable {kind : Kind} {worker : Nat}

@[simp] theorem tasks_nil : tasks kind worker [] = [] := rfl

@[simp] theorem tasks_append (first second : List Milestone) :
    tasks kind worker (first ++ second) = tasks kind worker first ++ tasks kind worker second :=
  List.filterMap_append

@[simp] theorem tasks_singleton (milestone : Milestone) :
    tasks kind worker [milestone] =
      if milestone.kind = kind ∧ milestone.worker = worker then [milestone.task] else [] := by
  unfold tasks
  split <;> simp [*]

end Milestone

namespace WorkerPhase

def isOpen : WorkerPhase → Bool
  | waiting => true
  | draining => true
  | _ => false

def isExecuting : WorkerPhase → Bool
  | handling _ _ => true
  | releasing _ _ _ => true
  | _ => false

end WorkerPhase

namespace Foreman
variable {σ : Type}

def milestonesOfWorker (foreman : Foreman) (index : Nat) (worker : Worker) : List Milestone :=
  match worker.phase with
  | .waiting => worker.slot.toList.map fun task => ⟨.executed, index, task⟩
  | .draining => worker.slot.toList.map fun task => ⟨.executed, index, task⟩
  | .releasing execution _ (.call request _) =>
    if request = .release foreman.config.queue execution.task.tenant then
      [⟨.completed, index, execution.task⟩]
    else []
  | _ => []

def found? (program : Program (Option Task)) : Option Task :=
  match program.outcome? with
  | some (.ok (some task)) => some task
  | _ => none

def milestonesOfAssigner (backend : Backend σ) (foreman : Foreman) (state : σ) : List Milestone :=
  match foreman.assigner with
  | .popping index program =>
    match program.outcome? with
    | none => (found? (program.step backend state).1).toList.map fun task => ⟨.popped, index, task⟩
    | some _ => []
  | _ => []

def milestones (backend : Backend σ) (moment : Moment) (member : Member) (foreman : Foreman)
    (state : σ) : List Milestone :=
  if foreman.canAdvance moment.elapsed member then
    match member with
    | .worker index =>
      match foreman.workers[index]? with
      | some worker => foreman.milestonesOfWorker index worker
      | none => []
    | .handler _ => []
    | .assigner => milestonesOfAssigner backend foreman state
  else []

def held? (foreman : Foreman) : Option Nat :=
  match foreman.assigner with
  | .holding index => some index
  | .popping index _ => some index
  | .assigning index _ => some index
  | _ => none

/-- The workers that the assigner may give a task: the one that it has taken, and the line. -/
def claimed (foreman : Foreman) : List Nat := foreman.held?.toList ++ foreman.idle

def hand? (foreman : Foreman) : Option (Nat × Task) :=
  match foreman.assigner with
  | .popping index program => (found? program).map fun task => (index, task)
  | .assigning index task => some (index, task)
  | _ => none

def GivesBack (queue : String) (task : Task) (program : Program Unit) : Prop :=
  program = Engine.releaseSlot queue task.tenant ∨
    (program.Makes fun _ => False) ∧ program.Calm

def Regular (queue : String) : WorkerPhase → Prop
  | .releasing execution _ program => GivesBack queue execution.task program
  | .lost _ => False
  | _ => True

def Assigns : AssignerPhase → Prop
  | .popping _ program => program.Calm
  | .handingBack _ => False
  | .lost _ => False
  | _ => True

/-- The line and the worker taken from it are different workers, who wait with empty slots until the
assigner is gone. A worker with a task looks into its slot, and none leaves before the assigner. -/
structure Orderly (foreman : Foreman) : Prop where
  crew : foreman.workers.length ≤ foreman.config.poolSize
  listed : foreman.claimed.Nodup
  vacant : foreman.assigner.isOver = false → ∀ index ∈ foreman.claimed, ∃ phase,
     foreman.workers[index]? = some (Worker.mk none phase) ∧ phase.isOpen
  loaded : ∀ (index : Nat) task phase, foreman.workers[index]? = some (Worker.mk (some task) phase) → phase.isOpen
  regular : ∀ (index : Nat) slot phase, foreman.workers[index]? = some (Worker.mk slot phase) →
    Regular foreman.config.queue phase
  stays : ∀ (index : Nat) slot, foreman.workers[index]? = some (Worker.mk slot .ended) → foreman.assigner.isOver
  assigns : Assigns foreman.assigner
  created : foreman.lifecycle = .created →
    foreman.workers = [] ∧ foreman.idle = [] ∧ foreman.assigner = .starting
  stopped : foreman.lifecycle = .stopped →
    (foreman.assigner = .starting ∨ foreman.assigner = .ended) ∧
      ∀ (index : Nat) slot phase, foreman.workers[index]? = some (Worker.mk slot phase) → phase = .ended

inductive WorkerMove (foreman : Foreman) (index : Nat) :
    Worker → Worker → List Nat → List Milestone → Prop
  | announces (slot : Option Task) :
    WorkerMove foreman index ⟨slot, .starting⟩ ⟨slot, .announcing⟩ [] []
  | joins (slot : Option Task) (on : foreman.assigner.isOver = false) :
    WorkerMove foreman index ⟨slot, .announcing⟩ ⟨slot, .waiting⟩ [index] []
  | withdraws (slot : Option Task) :
    WorkerMove foreman index ⟨slot, .announcing⟩ ⟨slot, .draining⟩ [] []
  | leaves : WorkerMove foreman index ⟨none, .waiting⟩ ⟨none, .draining⟩ [] []
  | takes {phase : WorkerPhase} (task : Task) (since : Nat) (leaving : Bool) (handler : Handler)
    (looks : phase.isOpen) (handled : foreman.registry.get? task.taskType = some handler) :
    WorkerMove foreman index ⟨some task, phase⟩
      ⟨none, .handling ⟨task, since, leaving⟩ (.ready (handler
        ⟨foreman.engine, foreman.config.queue, foreman.workerName index⟩ task))⟩
      [] [⟨.executed, index, task⟩]
  | refuses {phase : WorkerPhase} (task : Task) (since : Nat) (leaving : Bool)
    (looks : phase.isOpen) (unhandled : foreman.registry.get? task.taskType = none) :
    WorkerMove foreman index ⟨some task, phase⟩
      ⟨none, .releasing ⟨task, since, leaving⟩ .unhandled
        (Engine.releaseSlot foreman.config.queue task.tenant)⟩
      [] [⟨.executed, index, task⟩]
  | ends (closed : foreman.assigner.isOver) :
    WorkerMove foreman index ⟨none, .draining⟩ ⟨none, .ended⟩ [] []
  | handled (slot : Option Task) (execution : Execution) (progress : Job.Progress)
    (result : TaskResult) (ended : progress.ending?.isSome) :
    WorkerMove foreman index ⟨slot, .handling execution progress⟩
      ⟨slot, .releasing execution result
        (Engine.releaseSlot foreman.config.queue execution.task.tenant)⟩ [] []
  | releases (slot : Option Task) (execution : Execution) (result : TaskResult)
    (program : Program Unit) (silent : program.Makes fun _ => False) (calm : program.Calm) :
    WorkerMove foreman index
      ⟨slot, .releasing execution result
        (Engine.releaseSlot foreman.config.queue execution.task.tenant)⟩
      ⟨slot, .releasing execution result program⟩ [] [⟨.completed, index, execution.task⟩]
  | logs (slot : Option Task) (execution : Execution) (result : TaskResult)
    (program next : Program Unit) (silent : program.Makes fun _ => False)
    (silentNext : next.Makes fun _ => False) (calm : next.Calm) :
    WorkerMove foreman index ⟨slot, .releasing execution result program⟩
      ⟨slot, .releasing execution result next⟩ [] []
  | returns (slot : Option Task) (execution : Execution) (result : TaskResult)
    (program : Program Unit) (phase : WorkerPhase) (silent : program.Makes fun _ => False)
    (back : phase = .announcing ∨ phase = .draining) :
    WorkerMove foreman index ⟨slot, .releasing execution result program⟩ ⟨slot, phase⟩ [] []

structure Keeps (foreman next : Foreman) : Prop where
  config : next.config = foreman.config
  engine : next.engine = foreman.engine
  registry : next.registry = foreman.registry
  lifecycle : next.lifecycle = foreman.lifecycle

structure Moves (foreman next : Foreman) (index : Nat) (worker moved : Worker) (added : List Nat)
    (milestones : List Milestone) : Prop where
  keeps : foreman.Keeps next
  assigner : next.assigner = foreman.assigner
  workers : next.workers = foreman.workers.set index moved
  idle : next.idle = foreman.idle ++ added
  move : foreman.WorkerMove index worker moved added milestones

theorem execute_moves (foreman : Foreman) (index : Nat) (task : Task) (phase : WorkerPhase)
    (elapsed : Nat) (leaving : Bool) (looks : phase.isOpen) :
    ∃ moved, foreman.Moves (foreman.execute index task elapsed leaving).1 index
      ⟨some task, phase⟩ moved [] [⟨.executed, index, task⟩] := by
  cases handled : foreman.registry.get? task.taskType with
  | none =>
    exact ⟨_, ⟨rfl, rfl, rfl, rfl⟩, rfl, by simp only [execute, handled]; rfl,
      (List.append_nil _).symm, .refuses task elapsed leaving looks handled⟩
  | some handler =>
    exact ⟨_, ⟨rfl, rfl, rfl, rfl⟩, rfl, by simp only [execute, handled]; rfl,
      (List.append_nil _).symm, .takes task elapsed leaving handler looks handled⟩

theorem releasing_moves (backend : Backend σ) (steady : backend.Steady) (moment : Moment)
    (foreman : Foreman) (index : Nat) (slot : Option Task) (execution : Execution)
    (result : TaskResult) (program : Program Unit) (state : σ)
    (gives : GivesBack foreman.config.queue execution.task program) :
    ∃ moved, foreman.Moves
      (foreman.advanceWorker backend moment index ⟨slot, .releasing execution result program⟩ state).1
      index ⟨slot, .releasing execution result program⟩ moved []
      (foreman.milestonesOfWorker index ⟨slot, .releasing execution result program⟩) := by
  rcases gives with rfl | ⟨silent, calm⟩
  · obtain ⟨next, gives, after⟩ :=
      Engine.releaseSlot_eq foreman.config.queue execution.task.tenant
    have milestones : foreman.milestonesOfWorker index ⟨slot, .releasing execution result
        (Engine.releaseSlot foreman.config.queue execution.task.tenant)⟩ =
        [⟨.completed, index, execution.task⟩] := by
      simp only [gives, milestonesOfWorker, if_true]
    obtain ⟨reply, answered⟩ := Program.step_call backend steady _ next state
    rw [← gives] at answered
    obtain ⟨silent, calm⟩ := after reply
    have unended : (Engine.releaseSlot foreman.config.queue execution.task.tenant).outcome? = none := by
      rw [gives]
      rfl
    have stepped : (foreman.advanceWorker backend moment index ⟨slot, .releasing execution result
        (Engine.releaseSlot foreman.config.queue execution.task.tenant)⟩ state).1 =
          foreman.setWorker index ⟨slot, .releasing execution result (next reply)⟩ := by
      simp only [advanceWorker, unended, answered]
    rw [milestones, stepped]
    exact ⟨_, ⟨rfl, rfl, rfl, rfl⟩, rfl, rfl, (List.append_nil _).symm,
      .releases slot execution result (next reply) silent calm⟩
  · have nothing : foreman.milestonesOfWorker index ⟨slot, .releasing execution result program⟩ = [] := by
      cases program with
      | call request next => exact silent.1.elim
      | _ => rfl
    rw [nothing]
    cases ended : program.outcome? with
    | none =>
      have silentNext := Program.step_silent backend program state silent
      have calmNext := Program.step_calm backend steady program state calm
      simp only [advanceWorker, ended]
      exact ⟨_, ⟨rfl, rfl, rfl, rfl⟩, rfl, rfl, (List.append_nil _).symm,
        .logs slot execution result program _ silent silentNext calmNext⟩
    | some outcome =>
      have back : (if execution.leaving then WorkerPhase.draining else .announcing) = .announcing ∨
          (if execution.leaving then WorkerPhase.draining else .announcing) = .draining := by
        split
        · exact Or.inr rfl
        · exact Or.inl rfl
      cases outcome with
      | crashed crash => exact absurd ended (calm.not_crashed crash)
      | ok value =>
        simp only [advanceWorker, ended]
        exact ⟨_, ⟨rfl, rfl, rfl, rfl⟩, rfl, rfl, (List.append_nil _).symm,
          .returns slot execution result program _ silent back⟩
      | failed failure =>
        simp only [advanceWorker, ended]
        exact ⟨_, ⟨rfl, rfl, rfl, rfl⟩, rfl, rfl, (List.append_nil _).symm,
          .returns slot execution result program _ silent back⟩

theorem advanceWorker_moves (backend : Backend σ) (steady : backend.Steady) (moment : Moment)
    (foreman : Foreman) (index : Nat) (worker : Worker) (state : σ) (orderly : foreman.Orderly)
    (found : foreman.workers[index]? = some worker) (free : foreman.workerCanAdvance worker) :
    ∃ moved added, foreman.Moves (foreman.advanceWorker backend moment index worker state).1
      index worker moved added (foreman.milestonesOfWorker index worker) := by
  obtain ⟨slot, phase⟩ := worker
  cases phase with
  | starting => exact ⟨_, [], ⟨rfl, rfl, rfl, rfl⟩, rfl, rfl, (List.append_nil _).symm, .announces slot⟩
  | announcing =>
    cases closed : foreman.assigner.isOver with
    | true =>
      simp only [advanceWorker, closed, if_true]
      exact ⟨_, [], ⟨rfl, rfl, rfl, rfl⟩, rfl, rfl, (List.append_nil _).symm, .withdraws slot⟩
    | false =>
      have room : foreman.idle.length < foreman.config.poolSize := by
        simpa [workerCanAdvance, closed] using free
      simp only [advanceWorker, closed, room, if_true, Bool.false_eq_true, if_false]
      exact ⟨_, [index], ⟨rfl, rfl, rfl, rfl⟩, rfl, rfl, rfl, .joins slot closed⟩
  | waiting =>
    cases slot with
    | some task =>
      obtain ⟨moved, moves⟩ := execute_moves foreman index task .waiting moment.elapsed false rfl
      exact ⟨moved, [], moves⟩
    | none =>
      have leaving : (foreman.assigner.isOver || foreman.isStopping) = true := by
        simpa [workerCanAdvance] using free
      simp only [advanceWorker, leaving, if_true]
      exact ⟨_, [], ⟨rfl, rfl, rfl, rfl⟩, rfl, rfl, (List.append_nil _).symm, .leaves⟩
  | draining =>
    cases slot with
    | some task =>
      obtain ⟨moved, moves⟩ := execute_moves foreman index task .draining moment.elapsed true rfl
      exact ⟨moved, [], moves⟩
    | none =>
      have closed : foreman.assigner.isOver = true := by
        simpa [workerCanAdvance] using free
      simp only [advanceWorker, closed, if_true]
      exact ⟨_, [], ⟨rfl, rfl, rfl, rfl⟩, rfl, rfl, (List.append_nil _).symm, .ends closed⟩
  | handling execution progress =>
    have ended : progress.ending?.isSome := free
    obtain ⟨ending, met⟩ := Option.isSome_iff_exists.mp ended
    simp only [advanceWorker, met]
    exact ⟨_, [], ⟨rfl, rfl, rfl, rfl⟩, rfl, rfl, (List.append_nil _).symm,
      .handled slot execution progress _ ended⟩
  | releasing execution result program =>
    obtain ⟨moved, moves⟩ := releasing_moves backend steady moment foreman index slot execution result
      program state (orderly.regular index slot _ found)
    exact ⟨moved, [], moves⟩
  | ended => simp [workerCanAdvance] at free
  | lost crash => simp [workerCanAdvance] at free

inductive AssignerMove (foreman : Foreman) :
    AssignerPhase → AssignerPhase → List Nat → List Worker → List Milestone → Prop
  | starts : AssignerMove foreman .starting .listening foreman.idle foreman.workers []
  | resumes (till : Nat) :
    AssignerMove foreman (.pausing till) .listening foreman.idle foreman.workers []
  | stops (phase : AssignerPhase) (stopping : foreman.isStopping)
    (empty : phase = .listening ∨ (∃ index, phase = .holding index) ∨ ∃ till, phase = .pausing till) :
    AssignerMove foreman phase .ended foreman.idle foreman.workers []
  | calls (index : Nat) (rest : List Nat) (going : foreman.isStopping = false)
    (line : foreman.idle = index :: rest) :
    AssignerMove foreman .listening (.holding index) rest foreman.workers []
  | asks (index : Nat) (going : foreman.isStopping = false) :
    AssignerMove foreman (.holding index) (.popping index (Engine.next foreman.config.queue))
      foreman.idle foreman.workers []
  | pops (index : Nat) (program next : Program (Option Task)) (unended : program.outcome? = none)
    (calm : next.Calm) :
    AssignerMove foreman (.popping index program) (.popping index next) foreman.idle foreman.workers
      ((found? next).toList.map fun task => ⟨.popped, index, task⟩)
  | receives (index : Nat) (program : Program (Option Task)) (task : Task)
    (found : found? program = some task) :
    AssignerMove foreman (.popping index program) (.assigning index task) foreman.idle
      foreman.workers []
  | returns (index till : Nat) (program : Program (Option Task)) (added : List Nat)
    (nothing : found? program = none) (place : added = [] ∨ added = [index]) :
    AssignerMove foreman (.popping index program) (.pausing till) (foreman.idle ++ added)
      foreman.workers []
  | gives (index : Nat) (task : Task) (phase : WorkerPhase)
    (vacant : foreman.workers[index]? = some (Worker.mk none phase)) (looks : phase.isOpen) :
    AssignerMove foreman (.assigning index task) .listening foreman.idle
      (foreman.workers.set index ⟨some task, phase⟩) []

theorem returnIdle_eq (foreman : Foreman) (index elapsed : Nat) :
    ∃ till added, (added = [] ∨ added = [index]) ∧ (foreman.returnIdle index elapsed).1 =
      { foreman with assigner := .pausing till, idle := foreman.idle ++ added } := by
  unfold returnIdle
  split
  · exact ⟨_, [index], Or.inr rfl, rfl⟩
  · exact ⟨_, [], Or.inl rfl, by rw [List.append_nil]⟩

theorem Orderly.slotState_claimed {foreman : Foreman} (orderly : foreman.Orderly)
    (on : foreman.assigner.isOver = false) {index : Nat} (listed : index ∈ foreman.claimed) :
    foreman.slotState index = .vacant := by
  obtain ⟨phase, found, looks⟩ := orderly.vacant on index listed
  have lasts : phase.isOver = false := by
    cases phase <;> first | contradiction | rfl
  simp [slotState, found, lasts]

theorem Orderly.slotState_held {foreman : Foreman} (orderly : foreman.Orderly) (index : Nat)
    (held : foreman.held? = some index) (on : foreman.assigner.isOver = false) :
    ∃ phase, foreman.workers[index]? = some (Worker.mk none phase) ∧ phase.isOpen ∧
      foreman.slotState index = .vacant := by
  have listed : index ∈ foreman.claimed := by simp [claimed, held]
  obtain ⟨phase, found, looks⟩ := orderly.vacant on index listed
  exact ⟨phase, found, looks, orderly.slotState_claimed on listed⟩

theorem advanceAssigner_moves (backend : Backend σ) (steady : backend.Steady) (moment : Moment)
    (foreman : Foreman) (state : σ) (orderly : foreman.Orderly)
    (free : foreman.assignerCanAdvance moment.elapsed) :
    foreman.Keeps (foreman.advanceAssigner backend moment state).1 ∧
      foreman.AssignerMove foreman.assigner (foreman.advanceAssigner backend moment state).1.assigner
        (foreman.advanceAssigner backend moment state).1.idle
        (foreman.advanceAssigner backend moment state).1.workers
        (milestonesOfAssigner backend foreman state) := by
  have assigns := orderly.assigns
  cases phase : foreman.assigner with
  | starting =>
    simp only [advanceAssigner, milestonesOfAssigner, phase]
    exact ⟨⟨rfl, rfl, rfl, rfl⟩, .starts⟩
  | listening =>
    cases stopping : foreman.isStopping with
    | true =>
      simp only [advanceAssigner, milestonesOfAssigner, phase, stopping, if_true]
      exact ⟨⟨rfl, rfl, rfl, rfl⟩, .stops _ stopping (Or.inl rfl)⟩
    | false =>
      cases line : foreman.idle with
      | nil => simp [assignerCanAdvance, phase, stopping, line] at free
      | cons index rest =>
        simp only [advanceAssigner, milestonesOfAssigner, phase, stopping, line, Bool.false_eq_true, if_false]
        exact ⟨⟨rfl, rfl, rfl, rfl⟩, .calls index rest stopping line⟩
  | holding index =>
    cases stopping : foreman.isStopping with
    | true =>
      simp only [advanceAssigner, milestonesOfAssigner, phase, stopping, if_true]
      exact ⟨⟨rfl, rfl, rfl, rfl⟩, .stops _ stopping (Or.inr (Or.inl ⟨index, rfl⟩))⟩
    | false =>
      simp only [advanceAssigner, milestonesOfAssigner, phase, stopping, Bool.false_eq_true, if_false]
      exact ⟨⟨rfl, rfl, rfl, rfl⟩, .asks index stopping⟩
  | popping index program =>
    have calm : program.Calm := by
      rw [phase] at assigns
      exact assigns
    obtain ⟨till, added, place, returned⟩ := foreman.returnIdle_eq index moment.elapsed
    cases ended : program.outcome? with
    | none =>
      simp only [advanceAssigner, milestonesOfAssigner, phase, ended]
      exact ⟨⟨rfl, rfl, rfl, rfl⟩,
        .pops index program _ ended (Program.step_calm backend steady program state calm)⟩
    | some outcome =>
      cases outcome with
      | crashed crash => exact absurd ended (calm.not_crashed crash)
      | failed failure =>
        simp only [advanceAssigner, milestonesOfAssigner, phase, ended, returned]
        exact ⟨⟨rfl, rfl, rfl, rfl⟩,
          .returns index till program added (by simp only [found?, ended]) place⟩
      | ok found =>
        cases found with
        | none =>
          simp only [advanceAssigner, milestonesOfAssigner, phase, ended, returned]
          exact ⟨⟨rfl, rfl, rfl, rfl⟩,
            .returns index till program added (by simp only [found?, ended]) place⟩
        | some task =>
          simp only [advanceAssigner, milestonesOfAssigner, phase, ended]
          exact ⟨⟨rfl, rfl, rfl, rfl⟩, .receives index program task (by simp only [found?, ended])⟩
  | assigning index task =>
    obtain ⟨looking, found, looks, vacant⟩ := orderly.slotState_held index (by simp only [held?, phase])
      (by rw [phase]; rfl)
    have given : (foreman.workers.modify index fun worker => { worker with slot := some task }) =
        foreman.workers.set index ⟨some task, looking⟩ := by
      rw [List.modify_eq_set_getElem?, found]
      rfl
    simp only [advanceAssigner, milestonesOfAssigner, phase, assign, vacant, given]
    exact ⟨⟨rfl, rfl, rfl, rfl⟩, .gives index task looking found looks⟩
  | handingBack program =>
    rw [phase] at assigns
    exact assigns.elim
  | pausing till =>
    cases stopping : foreman.isStopping with
    | true =>
      simp only [advanceAssigner, milestonesOfAssigner, phase, stopping, if_true]
      exact ⟨⟨rfl, rfl, rfl, rfl⟩, .stops _ stopping (Or.inr (Or.inr ⟨till, rfl⟩))⟩
    | false =>
      have due : till ≤ moment.elapsed := by
        simpa [assignerCanAdvance, phase, stopping] using free
      simp only [advanceAssigner, milestonesOfAssigner, phase, stopping, due, if_true, Bool.false_eq_true,
        if_false]
      exact ⟨⟨rfl, rfl, rfl, rfl⟩, .resumes till⟩
  | ended => simp [assignerCanAdvance, phase] at free
  | lost crash => simp [assignerCanAdvance, phase] at free

inductive MemberMove (foreman next : Foreman) (elapsed : Nat) : Member → List Milestone → Prop
  | waits (member : Member) (blocked : foreman.canAdvance elapsed member = false)
    (same : next = foreman) : MemberMove foreman next elapsed member []
  | worker (index : Nat) (worker moved : Worker) (added : List Nat) (milestones : List Milestone)
    (found : foreman.workers[index]? = some worker)
    (moves : foreman.Moves next index worker moved added milestones) :
    MemberMove foreman next elapsed (.worker index) milestones
  | handler (index : Nat) (slot : Option Task) (execution : Execution) (progress after : Job.Progress)
    (found : foreman.workers[index]? = some (Worker.mk slot (.handling execution progress)))
    (works : progress.canAdvance elapsed)
    (same : next = foreman.setWorker index ⟨slot, .handling execution after⟩) :
    MemberMove foreman next elapsed (.handler index) []
  | assigner (milestones : List Milestone) (running : foreman.isRunning) (keeps : foreman.Keeps next)
    (move : foreman.AssignerMove foreman.assigner next.assigner next.idle next.workers milestones) :
    MemberMove foreman next elapsed .assigner milestones

theorem advance_moves (backend : Backend σ) (steady : backend.Steady) (moment : Moment)
    (member : Member) (foreman : Foreman) (state : σ) (orderly : foreman.Orderly) :
    foreman.MemberMove (foreman.advance backend moment member state).1 moment.elapsed member
      (foreman.milestones backend moment member state) := by
  cases free : foreman.canAdvance moment.elapsed member with
  | false =>
    simp only [advance, milestones, free, Bool.false_eq_true, if_false]
    exact .waits member free rfl
  | true =>
    simp only [advance, milestones, free, if_true]
    cases member with
    | worker index =>
      cases found : foreman.workers[index]? with
      | none => simp [canAdvance, found] at free
      | some worker =>
        obtain ⟨moved, added, moves⟩ := advanceWorker_moves backend steady moment foreman index worker
          state orderly found (by simpa [canAdvance, found] using free)
        simp only [found]
        exact .worker index worker moved added _ found moves
    | handler index =>
      cases found : foreman.workers[index]? with
      | none => simp [canAdvance, found] at free
      | some worker =>
        obtain ⟨slot, phase⟩ := worker
        cases phase with
        | handling execution progress =>
          simp only [found]
          exact .handler index slot execution progress _ found
            (by simpa [canAdvance, found] using free) rfl
        | _ => simp [canAdvance, found] at free
    | assigner =>
      obtain ⟨running, ready⟩ := Bool.and_eq_true_iff.mp free
      obtain ⟨keeps, move⟩ := advanceAssigner_moves backend steady moment foreman state orderly ready
      exact .assigner _ running keeps move

end Foreman
end TenantQueue
