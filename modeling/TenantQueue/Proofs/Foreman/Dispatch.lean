import TenantQueue.Proofs.Foreman.Orderly

/-! What becomes of the tasks that a foreman pops. One that is popped for a worker is in the assigner's
hand or in the worker's slot until the worker executes it, and is under way until it is completed. A step
moves it on from one to the next, and loses or doubles none. -/
namespace TenantQueue

/-- The task that a worker has begun to execute and has not completed. -/
def Worker.underWay (worker : Worker) : List Task :=
  match worker.phase with
  | .handling execution _ => [execution.task]
  | .releasing execution _ (.call _ _) => [execution.task]
  | _ => []

def AssignerPhase.popsUnderWay : AssignerPhase → Nat
  | popping _ program => if program.outcome?.isNone then 1 else 0
  | _ => 0

namespace Foreman
variable {σ : Type} {foreman next : Foreman} {elapsed : Nat} {member : Member} {milestones : List Milestone}

def slotOf (foreman : Foreman) (index : Nat) : List Task :=
  match foreman.workers[index]? with
  | some worker => worker.slot.toList
  | none => []

def handFor (foreman : Foreman) (index : Nat) : List Task :=
  match foreman.hand? with
  | some (worker, task) => if worker = index then [task] else []
  | none => []

def waitingFor (foreman : Foreman) (index : Nat) : List Task :=
  foreman.slotOf index ++ foreman.handFor index

def underWay (foreman : Foreman) (index : Nat) : List Task :=
  match foreman.workers[index]? with
  | some worker => worker.underWay
  | none => []

/-- What is popped for a worker waits for it, what is executed is under way, and what is completed is
not any more. -/
def Conserves (foreman next : Foreman) (milestones : List Milestone) : Prop :=
  ∀ index,
    Milestone.tasks .executed index milestones ++ next.waitingFor index =
      foreman.waitingFor index ++ Milestone.tasks .popped index milestones ∧
    Milestone.tasks .completed index milestones ++ next.underWay index =
      foreman.underWay index ++ Milestone.tasks .executed index milestones

theorem underWay_silent (slot : Option Task) (execution : Execution) (result : TaskResult)
    (program : Program Unit) (silent : program.Makes fun _ => False) :
    (Worker.mk slot (.releasing execution result program)).underWay = [] := by
  cases program with
  | call request next => exact silent.1.elim
  | _ => rfl

theorem underWay_releaseSlot (slot : Option Task) (execution : Execution) (result : TaskResult)
    (queue : String) (tenant : Tenant) :
    (Worker.mk slot (.releasing execution result (Engine.releaseSlot queue tenant))).underWay =
      [execution.task] := by
  obtain ⟨next, gives, _⟩ := Engine.releaseSlot_eq queue tenant
  rw [gives]
  rfl

theorem underWay_handling (slot : Option Task) (execution : Execution) (progress : Job.Progress) :
    (Worker.mk slot (.handling execution progress)).underWay = [execution.task] := rfl

theorem underWay_open (slot : Option Task) {phase : WorkerPhase} (looks : phase.isOpen) :
    (Worker.mk slot phase).underWay = [] := by
  cases phase with
  | waiting => rfl
  | draining => rfl
  | _ => contradiction

/-- What a step takes out of the slot is executed, and what is executed is completed or under way. -/
theorem WorkerMove.conserves {index : Nat} {worker moved : Worker} {added : List Nat}
    (move : foreman.WorkerMove index worker moved added milestones) :
    Milestone.tasks .executed index milestones ++ moved.slot.toList = worker.slot.toList ∧
    Milestone.tasks .popped index milestones = [] ∧
    Milestone.tasks .completed index milestones ++ moved.underWay =
      worker.underWay ++ Milestone.tasks .executed index milestones := by
  cases move with
  | takes task since leaving handler looks handled =>
    simp [underWay_open _ looks, underWay_handling]
  | refuses task since leaving looks unhandled =>
    simp [underWay_open _ looks, underWay_releaseSlot]
  | handled slot execution progress result ended =>
    simp [underWay_releaseSlot, underWay_handling]
  | releases slot execution result program silent calm =>
    simp [underWay_releaseSlot, underWay_silent _ _ _ _ silent]
  | logs slot execution result program following silent silentNext calm =>
    simp [underWay_silent _ _ _ _ silent, underWay_silent _ _ _ _ silentNext]
  | returns slot execution result program phase silent back =>
    have none : (Worker.mk slot phase).underWay = [] := by
      rcases back with rfl | rfl <;> rfl
    simp [underWay_silent _ _ _ _ silent, none]
  | _ => simp [Worker.underWay]

theorem WorkerMove.others {index other : Nat} {worker moved : Worker} {added : List Nat}
    (move : foreman.WorkerMove index worker moved added milestones) (differ : other ≠ index)
    (kind : Milestone.Kind) : Milestone.tasks kind other milestones = [] := by
  cases move <;> simp [Ne.symm differ]

theorem Moves.conserves {index : Nat} {worker moved : Worker} {added : List Nat}
    (moves : foreman.Moves next index worker moved added milestones)
    (found : foreman.workers[index]? = some worker) : foreman.Conserves next milestones := by
  intro other
  have hand : next.handFor other = foreman.handFor other := by
    rw [handFor, hand?, moves.assigner, handFor, hand?]
  have look := getElem?_moved found moves.workers other
  obtain ⟨slots, nothing, under⟩ := moves.move.conserves
  rw [waitingFor, waitingFor, hand, slotOf, slotOf, underWay, underWay, look]
  by_cases same : other = index
  · subst same
    rw [if_pos rfl, found, nothing, List.append_nil, ← List.append_assoc]
    exact ⟨congrArg (· ++ foreman.handFor other) slots, under⟩
  · rw [if_neg same, moves.move.others same, moves.move.others same, moves.move.others same]
    simp

theorem handler_conserves {index : Nat} {slot : Option Task} {execution : Execution}
    {progress after : Job.Progress}
    (found : foreman.workers[index]? = some (Worker.mk slot (.handling execution progress))) :
    foreman.Conserves (foreman.setWorker index ⟨slot, .handling execution after⟩) [] := by
  intro other
  have look : (foreman.setWorker index ⟨slot, .handling execution after⟩).workers[other]? =
      if other = index then some ⟨slot, .handling execution after⟩ else foreman.workers[other]? :=
    getElem?_moved found rfl other
  have hand : (foreman.setWorker index ⟨slot, .handling execution after⟩).handFor other =
      foreman.handFor other := rfl
  rw [waitingFor, waitingFor, hand, slotOf, slotOf, underWay, underWay, look]
  by_cases same : other = index
  · subst same
    rw [if_pos rfl, found]
    simp [underWay_handling]
  · simp [same]

theorem AssignerMove.conserves
    (move : foreman.AssignerMove foreman.assigner next.assigner next.idle next.workers milestones) :
    foreman.Conserves next milestones := by
  intro other
  generalize before : foreman.assigner = phase at move
  generalize after : next.assigner = phaseAfter at move
  generalize line : next.idle = lineAfter at move
  generalize crew : next.workers = crewAfter at move
  -- Unless the task is put into a slot, only the assigner's hand may have changed.
  have moved (same : crewAfter = foreman.workers) (never : Milestone.tasks .executed other milestones = [])
      (nor : Milestone.tasks .completed other milestones = [])
      (hands : next.handFor other = foreman.handFor other ++ Milestone.tasks .popped other milestones) :
      Milestone.tasks .executed other milestones ++ next.waitingFor other =
          foreman.waitingFor other ++ Milestone.tasks .popped other milestones ∧
        Milestone.tasks .completed other milestones ++ next.underWay other =
          foreman.underWay other ++ Milestone.tasks .executed other milestones := by
    rw [← crew] at same
    rw [never, nor, waitingFor, waitingFor, slotOf, slotOf, underWay, underWay, same, hands]
    simp
  cases move with
  | pops index program following unended calm =>
    have nothing : found? program = none := by simp only [found?, unended]
    refine moved rfl ?_ ?_ ?_
    · cases found? following <;> simp
    · cases found? following <;> simp
    · cases got : found? following <;> simp [handFor, hand?, before, after, got, nothing]
  | receives index program task found =>
    refine moved rfl rfl rfl ?_
    simp [handFor, hand?, before, after, found]
  | returns index till program added nothing place =>
    refine moved rfl rfl rfl ?_
    simp [handFor, hand?, before, after, nothing]
  | stops phase stopping empty =>
    refine moved rfl rfl rfl ?_
    rcases empty with rfl | ⟨_, rfl⟩ | ⟨_, rfl⟩ <;> simp [handFor, hand?, before, after]
  | gives index task phase vacant looks =>
    have hand : next.handFor other = [] := by simp [handFor, hand?, after]
    have look := getElem?_moved vacant crew other
    rw [waitingFor, waitingFor, hand, slotOf, slotOf, underWay, underWay, look]
    by_cases same : other = index
    · subst same
      simp [vacant, handFor, hand?, before, underWay_open _ looks]
    · simp [same, Ne.symm same, handFor, hand?, before]
  | asks index going =>
    refine moved rfl rfl rfl ?_
    have nothing : found? (Engine.next foreman.config.queue) = none := rfl
    simp [handFor, hand?, before, after, nothing]
  | _ =>
    refine moved rfl rfl rfl ?_
    simp [handFor, hand?, before, after]

theorem MemberMove.conserves (move : foreman.MemberMove next elapsed member milestones) :
    foreman.Conserves next milestones := by
  cases move with
  | waits member blocked same =>
    subst same
    exact fun index => ⟨(List.append_nil _).symm, (List.append_nil _).symm⟩
  | worker index worker moved added milestones found moves => exact moves.conserves found
  | handler index slot execution progress after found works same =>
    subst same
    exact handler_conserves found
  | assigner milestones running keeps move => exact move.conserves

/-- The assigner holds the worker that a task in its hand was popped for. -/
theorem held_of_handFor (foreman : Foreman) (index : Nat) (busy : foreman.handFor index ≠ []) :
    foreman.held? = some index ∧ foreman.assigner.isOver = false ∧
      (foreman.handFor index).length = 1 := by
  unfold handFor hand? at busy ⊢
  cases phase : foreman.assigner with
  | popping worker program =>
    simp only [phase, held?] at busy ⊢
    cases found : found? program with
    | none => simp [found] at busy
    | some task =>
      simp only [found, Option.map_some] at busy ⊢
      split at busy
      · rename_i same
        exact ⟨congrArg some same, rfl, by rw [if_pos same]; rfl⟩
      · contradiction
  | assigning worker task =>
    simp only [phase, held?] at busy ⊢
    split at busy
    · rename_i same
      exact ⟨congrArg some same, rfl, by rw [if_pos same]; rfl⟩
    · contradiction
  | _ => simp [phase] at busy

theorem Orderly.waitingFor_le (orderly : foreman.Orderly) (index : Nat) :
    (foreman.waitingFor index).length ≤ 1 := by
  rw [waitingFor, List.length_append]
  by_cases idle : foreman.handFor index = []
  · rw [idle, List.length_nil, slotOf]
    split
    · exact Option.length_toList_le
    · exact Nat.zero_le 1
  · obtain ⟨held, on, one⟩ := foreman.held_of_handFor index idle
    obtain ⟨phase, found, _⟩ := orderly.slotState_held index held on
    simp [slotOf, found, one]

theorem underWay_le (foreman : Foreman) (index : Nat) : (foreman.underWay index).length ≤ 1 := by
  rw [underWay]
  split
  · rw [Worker.underWay]
    split <;> simp
  · exact Nat.zero_le 1

theorem Orderly.none_left (orderly : foreman.Orderly) (stopped : foreman.lifecycle = .stopped)
    (index : Nat) : foreman.waitingFor index = [] ∧ foreman.underWay index = [] := by
  obtain ⟨assigner, ended⟩ := orderly.stopped stopped
  have hand : foreman.handFor index = [] := by
    rcases assigner with same | same <;> simp [handFor, hand?, same]
  rw [waitingFor, hand, List.append_nil, slotOf, underWay]
  cases found : foreman.workers[index]? with
  | none => exact ⟨rfl, rfl⟩
  | some worker =>
    obtain ⟨slot, phase⟩ := worker
    have same := ended index slot phase found
    subst same
    have empty := orderly.empty found rfl
    subst empty
    exact ⟨rfl, rfl⟩

theorem MemberMove.worker_lt (move : foreman.MemberMove next elapsed member milestones)
    (orderly : foreman.Orderly) : ∀ milestone ∈ milestones, milestone.worker < foreman.config.poolSize := by
  have inside {index : Nat} {worker : Worker} (found : foreman.workers[index]? = some worker) :
      index < foreman.config.poolSize :=
    Nat.lt_of_lt_of_le (List.getElem?_eq_some_iff.mp found).1 orderly.crew
  intro milestone done
  cases move with
  | waits member blocked same => simp at done
  | worker index worker moved added milestones found moves =>
    have own : milestone.worker = index := by
      cases moves.move <;> simp at done <;> rw [done]
    exact own ▸ inside found
  | handler index slot execution progress after found works same => simp at done
  | assigner milestones running keeps move =>
    have on := move.on
    have held : foreman.held? = some milestone.worker := by
      generalize before : foreman.assigner = phase at move
      generalize after : next.assigner = phaseAfter at move
      generalize line : next.idle = lineAfter at move
      generalize crew : next.workers = crewAfter at move
      cases move with
      | pops index program following unended calm =>
        obtain ⟨task, _, rfl⟩ := List.mem_map.mp done
        simp [held?, before]
      | _ => simp at done
    obtain ⟨phase, found, _⟩ := orderly.slotState_held milestone.worker held on
    exact inside found

def popCount (milestones : List Milestone) : Nat :=
  milestones.countP fun milestone => milestone.kind = .popped

theorem WorkerMove.popCount {index : Nat} {worker moved : Worker} {added : List Nat}
    (move : foreman.WorkerMove index worker moved added milestones) : popCount milestones = 0 := by
  cases move <;> rfl

theorem AssignerMove.stopping {before after : AssignerPhase} {idle : List Nat} {workers : List Worker}
    (move : foreman.AssignerMove before after idle workers milestones) (stopping : foreman.isStopping) :
    Foreman.popCount milestones + after.popsUnderWay ≤ before.popsUnderWay := by
  cases move with
  | pops index program following unended calm =>
    simp only [AssignerPhase.popsUnderWay, unended, Option.isNone_none, if_true]
    cases found : found? following with
    | none =>
      change 0 + (if following.outcome?.isNone then 1 else 0) ≤ 1
      split <;> simp
    | some task =>
      have ended : following.outcome?.isNone = false := by
        cases outcome : following.outcome? with
        | none => simp [found?, outcome] at found
        | some outcome => rfl
      rw [ended]
      exact Nat.le_refl 1
  | calls index rest going line =>
    rw [stopping] at going
    contradiction
  | asks index going =>
    rw [stopping] at going
    contradiction
  | _ => exact Nat.zero_le _

theorem MemberMove.stopping (move : foreman.MemberMove next elapsed member milestones)
    (stopping : foreman.isStopping) :
    next.isStopping ∧ popCount milestones + next.assigner.popsUnderWay ≤ foreman.assigner.popsUnderWay := by
  have still (keeps : foreman.Keeps next) : next.isStopping := by
    rw [isStopping, keeps.lifecycle]
    exact stopping
  cases move with
  | waits member blocked same =>
    rw [same]
    exact ⟨stopping, Nat.le_of_eq (Nat.zero_add _)⟩
  | worker index worker moved added milestones found moves =>
    exact ⟨still moves.keeps, Nat.le_of_eq (by
      rw [moves.move.popCount, moves.assigner, Nat.zero_add])⟩
  | handler index slot execution progress after found works same =>
    subst same
    exact ⟨still ⟨rfl, rfl, rfl, rfl⟩, Nat.le_of_eq (Nat.zero_add _)⟩
  | assigner milestones running keeps move => exact ⟨still keeps, move.stopping stopping⟩

end Foreman
end TenantQueue
