import TenantQueue.Proofs.Foreman.Moves
import TenantQueue.Proofs.Queue.Calls

/-! What the execution of a task does to a store in memory. If its handler asks nothing of the engine, the
one slot that the task's tenant gets back is all that changes, however the execution ends. -/
namespace TenantQueue

namespace Job

def Silent : Job → Prop
  | perform _ => False
  | pause _ next => next.Silent
  | awaitStop _ next => next.Silent
  | report _ next => next.Silent
  | _ => True

def Progress.Silent : Progress → Prop
  | ready job => job.Silent
  | working _ => False
  | paused _ job => job.Silent

theorem Progress.Silent.advance {σ : Type} {progress : Progress} (silent : progress.Silent)
    (backend : Backend σ) (moment : Moment) (stopping : Bool) (state : σ) :
    (progress.advance backend moment stopping state).1.Silent ∧
      (progress.advance backend moment stopping state).2.2 = state := by
  cases progress with
  | working program => exact silent.elim
  | paused till job =>
    refine ⟨?_, rfl⟩
    simp only [Progress.advance]
    split <;> exact silent
  | ready job =>
    cases job with
    | perform work => exact silent.elim
    | awaitStop milliseconds next =>
      simp only [Progress.advance]
      split <;> exact ⟨silent, rfl⟩
    | _ => exact ⟨silent, rfl⟩

end Job

namespace Foreman

/-- How far a worker has come with a task that was put into its slot, and what has become of the store
by then. -/
inductive Stage (queue : String) (task : Task) (store : MemoryStore) : MemoryStore → Worker → Prop
  | given (phase : WorkerPhase) (looks : phase.isOpen) : Stage queue task store store ⟨some task, phase⟩
  | handling (execution : Execution) (progress : Job.Progress) (own : execution.task = task)
    (silent : progress.Silent) : Stage queue task store store ⟨none, .handling execution progress⟩
  | releasing (execution : Execution) (result : TaskResult) :
    Stage queue task store store
      ⟨none, .releasing execution result (Engine.releaseSlot queue task.tenant)⟩
  | released (execution : Execution) (result : TaskResult) (program : Program Unit)
    (silent : program.Makes fun _ => False) :
    Stage queue task store (store.perform (.release queue task.tenant)).2
      ⟨none, .releasing execution result program⟩
  | ended (phase : WorkerPhase) (rests : phase.isExecuting = false) :
    Stage queue task store (store.perform (.release queue task.tenant)).2 ⟨none, phase⟩

def HandlesSilently (foreman : Foreman) (index : Nat) (task : Task) : Prop :=
  ∀ handler, foreman.registry.get? task.taskType = some handler →
    (handler ⟨foreman.engine, foreman.config.queue, foreman.workerName index⟩ task).Silent

variable {foreman : Foreman} {index : Nat} {queue : String} {task : Task} {store now : MemoryStore}
  {worker : Worker}

theorem getElem?_setWorker (found : foreman.workers[index]? = some worker) (moved : Worker) :
    (foreman.setWorker index moved).workers[index]? = some moved := by
  obtain ⟨inside, _⟩ := List.getElem?_eq_some_iff.mp found
  exact List.getElem?_set_self inside

theorem execute_stage (found : foreman.workers[index]? = some worker)
    (silent : foreman.HandlesSilently index task) (elapsed : Nat) (leaving : Bool) :
    ∃ moved, (foreman.execute index task elapsed leaving).1.workers[index]? = some moved ∧
      foreman.Keeps (foreman.execute index task elapsed leaving).1 ∧
      Stage foreman.config.queue task store store moved := by
  refine ⟨_, getElem?_setWorker found _, ⟨rfl, rfl, rfl, rfl⟩, ?_⟩
  cases handled : foreman.registry.get? task.taskType with
  | none => exact .releasing _ _
  | some handler => exact .handling _ _ rfl (silent handler handled)

def Follows (foreman : Foreman) (index : Nat) (task : Task) (store : MemoryStore)
    (after : Foreman × List Notice × MemoryStore) : Prop :=
  foreman.Keeps after.1 ∧ ∃ moved, after.1.workers[index]? = some moved ∧
    Stage foreman.config.queue task store after.2.2 moved

theorem Stage.follows_self (stage : Stage foreman.config.queue task store now worker)
    (found : foreman.workers[index]? = some worker) (notices : List Notice) :
    foreman.Follows index task store (foreman, notices, now) :=
  ⟨⟨rfl, rfl, rfl, rfl⟩, worker, found, stage⟩

theorem Stage.follows_set {moved : Worker} (stage : Stage foreman.config.queue task store now moved)
    (found : foreman.workers[index]? = some worker) (notices : List Notice) :
    foreman.Follows index task store (foreman.setWorker index moved, notices, now) :=
  ⟨⟨rfl, rfl, rfl, rfl⟩, moved, getElem?_setWorker found moved, stage⟩

/-- The call is made in the first step, and what is left to do makes none. -/
theorem releasing_follows (moment : Moment) (execution : Execution) (result : TaskResult)
    (found : foreman.workers[index]? = some ⟨none, .releasing execution result
      (Engine.releaseSlot foreman.config.queue task.tenant)⟩) :
    foreman.Follows index task store (foreman.advanceWorker MemoryStore.backend moment index
      ⟨none, .releasing execution result
        (Engine.releaseSlot foreman.config.queue task.tenant)⟩ store) := by
  obtain ⟨next, gives, after⟩ := Engine.releaseSlot_eq foreman.config.queue task.tenant
  rw [gives] at found ⊢
  have performed : MemoryStore.backend.perform (.release foreman.config.queue task.tenant) store =
      (.ok (), (store.perform (.release foreman.config.queue task.tenant)).2) := rfl
  have released : Stage foreman.config.queue task store
      (store.perform (.release foreman.config.queue task.tenant)).2
      ⟨none, .releasing execution result (next (.ok ()))⟩ := .released _ _ _ (after _).1
  simp only [advanceWorker, Program.outcome?, Program.step, performed]
  exact released.follows_set found []

theorem released_follows (moment : Moment) (execution : Execution) (result : TaskResult)
    (program : Program Unit) (silent : program.Makes fun _ => False)
    (found : foreman.workers[index]? = some ⟨none, .releasing execution result program⟩) :
    foreman.Follows index task store (foreman.advanceWorker MemoryStore.backend moment index
      ⟨none, .releasing execution result program⟩
      (store.perform (.release foreman.config.queue task.tenant)).2) := by
  have back : (if execution.leaving then WorkerPhase.draining else .announcing).isExecuting = false := by
    split <;> rfl
  cases program with
  | call request next => exact silent.1.elim
  | serve queue next => exact silent.1.elim
  | note notice rest => exact (Stage.released execution result rest silent).follows_set found [notice]
  | crashed crash => exact (Stage.ended (.lost crash) rfl).follows_set found []
  | done value => exact ⟨⟨rfl, rfl, rfl, rfl⟩, _, getElem?_setWorker found _, .ended _ back⟩
  | failed failure => exact ⟨⟨rfl, rfl, rfl, rfl⟩, _, getElem?_setWorker found _, .ended _ back⟩

/-- A worker that is done with the task has an empty slot, and goes on without the store. -/
theorem ended_follows (moment : Moment) (phase : WorkerPhase) (rests : phase.isExecuting = false)
    (found : foreman.workers[index]? = some ⟨none, phase⟩) :
    foreman.Follows index task store (foreman.advanceWorker MemoryStore.backend moment index
      ⟨none, phase⟩ (store.perform (.release foreman.config.queue task.tenant)).2) := by
  have stays (notices : List Notice) : foreman.Follows index task store
      (foreman, notices, (store.perform (.release foreman.config.queue task.tenant)).2) :=
    (Stage.ended phase rests).follows_self found notices
  have goes (after : WorkerPhase) (rests : after.isExecuting = false) (notices : List Notice) :
      foreman.Follows index task store (foreman.setWorker index ⟨none, after⟩, notices,
        (store.perform (.release foreman.config.queue task.tenant)).2) :=
    (Stage.ended after rests).follows_set found notices
  cases phase with
  | starting => exact goes .announcing rfl _
  | announcing =>
    simp only [advanceWorker]
    split
    · exact goes .draining rfl []
    · split
      · exact ⟨⟨rfl, rfl, rfl, rfl⟩, _, getElem?_setWorker found _, .ended .waiting rfl⟩
      · exact stays []
  | waiting =>
    simp only [advanceWorker]
    split
    · exact goes .draining rfl []
    · exact stays []
  | draining =>
    simp only [advanceWorker]
    split
    · exact goes .ended rfl _
    · exact stays []
  | ended => exact stays []
  | lost crash => exact stays []
  | handling execution progress => contradiction
  | releasing execution result program => contradiction

theorem Stage.advanceWorker_follows (stage : Stage foreman.config.queue task store now worker)
    (found : foreman.workers[index]? = some worker) (silent : foreman.HandlesSilently index task)
    (moment : Moment) :
    foreman.Follows index task store
      (foreman.advanceWorker MemoryStore.backend moment index worker now) := by
  cases stage with
  | given phase looks =>
    cases phase with
    | waiting =>
      obtain ⟨moved, after, keeps, stage⟩ := execute_stage found silent moment.elapsed false
      exact ⟨keeps, moved, after, stage⟩
    | draining =>
      obtain ⟨moved, after, keeps, stage⟩ := execute_stage found silent moment.elapsed true
      exact ⟨keeps, moved, after, stage⟩
    | _ => contradiction
  | handling execution progress own quiet =>
    simp only [advanceWorker]
    split
    · subst own
      exact (Stage.releasing execution _).follows_set found []
    · exact (Stage.handling execution progress own quiet).follows_self found []
  | releasing execution result => exact releasing_follows moment execution result found
  | released execution result program quiet =>
    exact released_follows moment execution result program quiet found
  | ended phase rests => exact ended_follows moment phase rests found

theorem Stage.advanceHandler_follows (stage : Stage foreman.config.queue task store now worker)
    (found : foreman.workers[index]? = some worker) (moment : Moment) :
    foreman.Follows index task store
      (foreman.advanceHandler MemoryStore.backend moment index worker now) := by
  cases stage with
  | handling execution progress own quiet =>
    obtain ⟨still, same⟩ := quiet.advance MemoryStore.backend moment foreman.isStopping store
    simp only [advanceHandler]
    rw [same]
    exact (Stage.handling execution _ own still).follows_set found _
  | given phase looks =>
    cases phase <;> first | contradiction | exact (Stage.given _ looks).follows_self found []
  | releasing execution result => exact (Stage.releasing execution result).follows_self found []
  | released execution result program quiet =>
    exact (Stage.released execution result program quiet).follows_self found []
  | ended phase rests =>
    cases phase <;> first | contradiction | exact (Stage.ended _ rests).follows_self found []

theorem Stage.advance_follows (stage : Stage foreman.config.queue task store now worker)
    (found : foreman.workers[index]? = some worker) (silent : foreman.HandlesSilently index task)
    (moment : Moment) (member : Member) (own : member = .worker index ∨ member = .handler index) :
    foreman.Follows index task store
      (foreman.advance MemoryStore.backend moment member now) := by
  unfold advance
  split
  · rcases own with rfl | rfl
    · simp only [found]
      exact stage.advanceWorker_follows found silent moment
    · simp only [found]
      exact stage.advanceHandler_follows found moment
  · exact stage.follows_self found []

def turned {σ : Type} (backend : Backend σ) : List (Moment × Member) → Foreman × σ → Foreman × σ
  | [], now => now
  | (moment, member) :: rest, (foreman, state) =>
    turned backend rest ((foreman.advance backend moment member state).1,
      (foreman.advance backend moment member state).2.2)

/-- A worker executes a task that was put into its slot, from the beginning to the end, and its handler
asks nothing of the engine. -/
structure Executes (foreman : Foreman) (index : Nat) (task : Task) (turns : List (Moment × Member))
    (store last : MemoryStore) : Prop where
  given : ∃ phase, foreman.workers[index]? = some ⟨some task, phase⟩ ∧ phase.isOpen
  silent : foreman.HandlesSilently index task
  own : ∀ turn ∈ turns, turn.2 = .worker index ∨ turn.2 = .handler index
  ended : ∃ phase, (turned MemoryStore.backend turns (foreman, store)).1.workers[index]? =
    some ⟨none, phase⟩ ∧ phase.isExecuting = false
  last : (turned MemoryStore.backend turns (foreman, store)).2 = last

theorem Keeps.handlesSilently {next : Foreman} (keeps : foreman.Keeps next)
    (silent : foreman.HandlesSilently index task) : next.HandlesSilently index task := by
  unfold HandlesSilently workerName at silent ⊢
  rw [keeps.registry, keeps.engine, keeps.config]
  exact silent

theorem Stage.turned (turns : List (Moment × Member))
    (stage : Stage foreman.config.queue task store now worker)
    (found : foreman.workers[index]? = some worker) (silent : foreman.HandlesSilently index task)
    (own : ∀ turn ∈ turns, turn.2 = .worker index ∨ turn.2 = .handler index) :
    ∃ moved, (Foreman.turned MemoryStore.backend turns (foreman, now)).1.workers[index]? = some moved ∧
      Stage foreman.config.queue task store
        (Foreman.turned MemoryStore.backend turns (foreman, now)).2 moved := by
  induction turns generalizing foreman now worker with
  | nil => exact ⟨worker, found, stage⟩
  | cons turn rest ih =>
    obtain ⟨moment, member⟩ := turn
    obtain ⟨keeps, moved, after, stage⟩ := stage.advance_follows found silent moment member
      (own (moment, member) (List.mem_cons_self ..))
    rw [← keeps.config] at stage ⊢
    exact ih stage after (keeps.handlesSilently silent)
      fun turn member => own turn (List.mem_cons_of_mem _ member)

/-- An execution gives back one slot of the task's tenant, and does nothing else to the store. -/
theorem Executes.last_eq {turns : List (Moment × Member)} {last : MemoryStore}
    (executes : foreman.Executes index task turns store last) :
    last = (store.perform (.release foreman.config.queue task.tenant)).2 := by
  obtain ⟨phase, found, looks⟩ := executes.given
  obtain ⟨after, ended, rests⟩ := executes.ended
  obtain ⟨moved, same, stage⟩ :=
    (Stage.given phase looks).turned turns found executes.silent executes.own
  rw [ended, Option.some.injEq] at same
  subst same
  rw [executes.last] at stage
  cases stage with
  | ended phase rests => rfl
  | _ => contradiction

end Foreman
end TenantQueue
