import TenantQueue.Proofs.Site.Course

/-! What a foreman comes to where turns are fair. A stage that lasts until a member takes a step, which it
can at any time, comes to that step. -/
namespace TenantQueue

def Worker.acts (worker : Worker) : Bool :=
  match worker.phase with
  | .waiting => worker.slot.isSome
  | .draining => worker.slot.isSome
  | .handling _ progress => progress.ending?.isSome
  | .releasing _ _ _ => true
  | _ => false

def Worker.GivesBack (worker : Worker) : Prop :=
  (∃ execution result program, worker.phase = .releasing execution result program) ∧
    worker.underWay ≠ []

theorem Job.Progress.ended_stays {progress : Job.Progress} (ended : progress.ending?.isSome)
    (elapsed : Nat) : progress.canAdvance elapsed = false := by
  cases progress with
  | ready job => cases job <;> simp_all [ending?, canAdvance]
  | _ => simp [ending?] at ended

namespace Foreman
variable {foreman next : Foreman} {mover : Option Member} {milestones : List Milestone}

/-- A worker that acts stays as it is until its turn. -/
theorem Change.worker_kept (change : foreman.Change next mover milestones) (orderly : foreman.Orderly)
    {index : Nat} {worker : Worker} (found : foreman.workers[index]? = some worker)
    (acts : worker.acts) (waits : mover ≠ some (.worker index)) :
    next.workers[index]? = some worker := by
  cases mover with
  | none =>
    obtain ⟨_, alike | ⟨created, _⟩⟩ := change.alike_or_starts
    · rw [alike.workers]
      exact found
    · rw [(orderly.created created).1] at found
      contradiction
  | some member =>
    cases change with
    | moves elapsed member milestones move =>
      cases move with
      | waits member blocked same => exact same ▸ found
      | worker other current moved added milestones held moves =>
        have differ : index ≠ other := by
          rintro rfl
          exact waits rfl
        rw [getElem?_moved held moves.workers, if_neg differ]
        exact found
      | handler other slot execution progress after held works same =>
        have differ : index ≠ other := by
          rintro rfl
          rw [held, Option.some.injEq] at found
          subst found
          rw [Job.Progress.ended_stays acts] at works
          contradiction
        rw [same, getElem?_moved held rfl, if_neg differ]
        exact found
      | assigner milestones running keeps move =>
        generalize before : foreman.assigner = phase at move
        generalize after : next.assigner = phaseAfter at move
        generalize line : next.idle = lineAfter at move
        generalize crew : next.workers = crewAfter at move
        cases move with
        | gives other task phase vacant looks =>
          have differ : index ≠ other := by
            rintro rfl
            rw [vacant, Option.some.injEq] at found
            subst found
            cases phase <;> simp [Worker.acts, WorkerPhase.isOpen] at acts looks
          rw [← crew, getElem?_moved vacant crew, if_neg differ]
          exact found
        | _ => exact found

theorem Change.assigner_kept (change : foreman.Change next mover milestones)
    (waits : mover ≠ some .assigner) : next.assigner = foreman.assigner := by
  cases mover with
  | none =>
    obtain ⟨_, alike | ⟨_, started⟩⟩ := change.alike_or_starts
    · exact alike.assigner
    · rw [started]
  | some member =>
    cases change with
    | moves elapsed member milestones move =>
      cases move with
      | waits member blocked same => rw [same]
      | worker index worker moved added milestones found moves => exact moves.assigner
      | handler index slot execution progress after found works same =>
        rw [same]
        rfl
      | assigner milestones running keeps move => exact absurd rfl waits

theorem MemberMove.of_worker {index elapsed : Nat} {worker : Worker}
    (move : foreman.MemberMove next elapsed (.worker index) milestones)
    (free : foreman.canAdvance elapsed (.worker index))
    (found : foreman.workers[index]? = some worker) :
    ∃ moved added, foreman.WorkerMove index worker moved added milestones ∧
      next.workers[index]? = some moved := by
  cases move with
  | waits member blocked same =>
    rw [free] at blocked
    contradiction
  | worker index current moved added milestones held moves =>
    rw [held, Option.some.injEq] at found
    subst found
    exact ⟨moved, added, moves.move, by rw [getElem?_moved held moves.workers, if_pos rfl]⟩

theorem MemberMove.of_assigner {elapsed : Nat}
    (move : foreman.MemberMove next elapsed .assigner milestones)
    (free : foreman.canAdvance elapsed .assigner) :
    foreman.AssignerMove foreman.assigner next.assigner next.idle next.workers milestones := by
  cases move with
  | waits member blocked same =>
    rw [free] at blocked
    contradiction
  | assigner milestones running keeps move => exact move

theorem AssignerMove.of_found {index : Nat} {program : Program (Option Task)} {task : Task}
    {after : AssignerPhase} {idle : List Nat} {workers : List Worker}
    (move : foreman.AssignerMove (.popping index program) after idle workers milestones)
    (found : found? program = some task) : after = .assigning index task := by
  cases move with
  | stops phase stopping empty => simp at empty
  | pops index program following unended calm =>
    simp [found?, unended] at found
  | receives index program other same =>
    rw [found, Option.some.injEq] at same
    rw [same]
  | returns index till program added nothing place =>
    rw [found] at nothing
    contradiction

theorem AssignerMove.of_assigning {index : Nat} {task : Task} {after : AssignerPhase}
    {idle : List Nat} {workers : List Worker}
    (move : foreman.AssignerMove (.assigning index task) after idle workers milestones) :
    ∃ phase, workers[index]? = some (Worker.mk (some task) phase) := by
  cases move with
  | stops phase stopping empty => simp at empty
  | gives index task phase vacant looks =>
    obtain ⟨inside, _⟩ := List.getElem?_eq_some_iff.mp vacant
    exact ⟨phase, List.getElem?_set_self inside⟩

theorem WorkerMove.of_loaded {index : Nat} {worker moved : Worker} {added : List Nat}
    (move : foreman.WorkerMove index worker moved added milestones) (loaded : worker.slot.isSome)
    (looks : worker.phase.isOpen) : moved.underWay ≠ [] := by
  cases move with
  | takes task since leaving handler looks handled => simp [underWay_handling]
  | refuses task since leaving looks unhandled => simp [underWay_releaseSlot]
  | _ => contradiction

theorem WorkerMove.of_handled {index : Nat} {slot : Option Task} {execution : Execution}
    {progress : Job.Progress} {moved : Worker} {added : List Nat}
    (move : foreman.WorkerMove index ⟨slot, .handling execution progress⟩ moved added milestones) :
    moved.GivesBack := by
  cases move with
  | handled slot execution progress result ended =>
    exact ⟨⟨_, _, _, rfl⟩, by simp [underWay_releaseSlot]⟩
  | _ => contradiction

theorem WorkerMove.of_givesBack {index : Nat} {worker moved : Worker} {added : List Nat}
    (move : foreman.WorkerMove index worker moved added milestones) (gives : worker.GivesBack) :
    Milestone.tasks .completed index milestones ≠ [] := by
  obtain ⟨slot, phase⟩ := worker
  obtain ⟨⟨execution, result, program, rfl⟩, busy⟩ := gives
  cases move with
  | releases slot execution result program silent calm => simp
  | logs slot execution result program following silent silentNext calm =>
    exact absurd (underWay_silent _ _ _ _ silent) busy
  | returns slot execution result program phase silent back =>
    exact absurd (underWay_silent _ _ _ _ silent) busy
  | _ => contradiction

/-- A stage that lasts until a member takes a step, which it can at any time. -/
structure Awaits (member : Member) (stage : Foreman → Prop) : Prop where
  able : ∀ foreman, foreman.Orderly → stage foreman → ∀ elapsed, foreman.canAdvance elapsed member
  lasts : ∀ foreman next mover milestones, foreman.Orderly → stage foreman →
    foreman.Change next mover milestones → mover ≠ some member → stage next

theorem awaits_worker (index : Nat) (stage : Worker → Prop)
    (acts : ∀ worker, stage worker → worker.acts) :
    Awaits (.worker index) fun foreman =>
      ∃ worker, foreman.workers[index]? = some worker ∧ stage worker where
  able := by
    rintro foreman _ ⟨worker, found, reached⟩ elapsed
    have free := acts worker reached
    simp only [canAdvance, found]
    unfold Worker.acts at free
    unfold workerCanAdvance
    cases phase : worker.phase <;> simp_all
  lasts := by
    rintro foreman next mover milestones orderly ⟨worker, found, reached⟩ change waits
    exact ⟨worker, change.worker_kept orderly found (acts worker reached) waits, reached⟩

theorem Orderly.running (orderly : foreman.Orderly) (on : foreman.assigner.isOver = false)
    (begun : foreman.assigner ≠ .starting) : foreman.isRunning := by
  unfold isRunning
  cases stage : foreman.lifecycle with
  | started => rfl
  | stopping => rfl
  | created => exact absurd (orderly.created stage).2.2 begun
  | stopped =>
    rcases (orderly.stopped stage).1 with starting | ended
    · exact absurd starting begun
    · rw [ended] at on
      contradiction

theorem Orderly.stopped_rests (orderly : foreman.Orderly) (stopped : foreman.lifecycle = .stopped)
    (elapsed : Nat) (member : Member) : foreman.canAdvance elapsed member = false := by
  obtain ⟨_, ended⟩ := orderly.stopped stopped
  have past {index : Nat} {worker : Worker} (found : foreman.workers[index]? = some worker) :
      worker.phase = .ended := ended index worker.slot worker.phase found
  cases member with
  | assigner => simp [canAdvance, isRunning, stopped]
  | worker index =>
    cases found : foreman.workers[index]? with
    | none => simp [canAdvance, found]
    | some worker => simp [canAdvance, workerCanAdvance, found, past found]
  | handler index =>
    cases found : foreman.workers[index]? with
    | none => simp [canAdvance, found]
    | some worker =>
      obtain ⟨slot, phase⟩ := worker
      have same : phase = .ended := past found
      simp [canAdvance, found, same]

theorem awaits_assigner (index : Nat) (stage : AssignerPhase → Prop)
    (busy : ∀ foreman : Foreman, stage foreman.assigner → foreman.handFor index ≠ []) :
    Awaits .assigner fun foreman => stage foreman.assigner where
  able := by
    intro foreman orderly reached elapsed
    obtain ⟨held, on, _⟩ := foreman.held_of_handFor index (busy foreman reached)
    obtain ⟨_, _, _, vacant⟩ := orderly.slotState_held index held on
    rw [canAdvance, Bool.and_eq_true_iff]
    unfold held? at held
    unfold assignerCanAdvance
    cases phase : foreman.assigner with
    | holding other => exact ⟨orderly.running on (by simp [phase]), rfl⟩
    | popping other program => exact ⟨orderly.running on (by simp [phase]), rfl⟩
    | assigning other task =>
      simp only [phase, Option.some.injEq] at held
      exact ⟨orderly.running on (by simp [phase]), by simp [held, vacant]⟩
    | _ => simp [phase] at held
  lasts := by
    intro foreman next mover milestones orderly reached change waits
    rw [change.assigner_kept waits]
    exact reached

end Foreman

namespace Course
variable {course : Course}

/-- Each member takes a step in the end, unless it comes to where it cannot take one at some reading of
the clock. -/
def Fair (course : Course) : Prop :=
  ∀ place member time, ∃ later, time ≤ later ∧
    ((course.turns later).mover place = some member ∨
      ∀ foreman, (course.site later).foremen[place]? = some foreman →
        ∃ elapsed, foreman.canAdvance elapsed member = false)

def HandlersEnd (course : Course) : Prop :=
  ∀ (place index time : Nat) foreman slot execution progress,
    (course.site time).foremen[place]? = some foreman →
    foreman.workers[index]? = some (Worker.mk slot (.handling execution progress)) →
    ∃ later foreman slot progress, time ≤ later ∧
      (course.site later).foremen[place]? = some foreman ∧
      foreman.workers[index]? = some (Worker.mk slot (.handling execution progress)) ∧
      progress.ending?.isSome

theorem change_at (course : Course) (place time : Nat) (foreman : Foreman)
    (found : (course.site time).foremen[place]? = some foreman) :
    ∃ next, (course.site (time + 1)).foremen[place]? = some next ∧
      foreman.Change next ((course.turns time).mover place)
        ((course.site time).milestones place (course.turns time)) :=
  (course.site time).step_changes (course.turns time) place foreman found
    (course.orderly_at place time found)

theorem moves_at (course : Course) (place time : Nat) {member : Foreman.Member} {foreman : Foreman}
    (found : (course.site time).foremen[place]? = some foreman)
    (turn : (course.turns time).mover place = some member) :
    ∃ next milestones elapsed, (course.site (time + 1)).foremen[place]? = some next ∧
      foreman.MemberMove next elapsed member milestones ∧
      course.record place (time + 1) = course.record place time ++ milestones := by
  obtain ⟨next, follows, change⟩ := course.change_at place time foreman found
  rw [turn] at change
  cases change with
  | moves elapsed member milestones move => exact ⟨next, _, elapsed, follows, move, rfl⟩

/-- A stage that awaits a member's step comes to that step. -/
theorem eventually_moves (fair : course.Fair) {member : Foreman.Member} {stage : Foreman → Prop}
    (awaits : Foreman.Awaits member stage) (place time : Nat) (foreman : Foreman)
    (found : (course.site time).foremen[place]? = some foreman) (reached : stage foreman) :
    ∃ later foreman next milestones elapsed, time ≤ later ∧
      (course.site later).foremen[place]? = some foreman ∧ foreman.Orderly ∧ stage foreman ∧
      (course.site (later + 1)).foremen[place]? = some next ∧
      foreman.MemberMove next elapsed member milestones ∧
      course.record place (later + 1) = course.record place later ++ milestones := by
  obtain ⟨last, after, comes⟩ := fair place member time
  obtain ⟨offset, rfl⟩ := Nat.exists_eq_add_of_le after
  -- By induction on the time that is left until the turn or the obstacle that fairness promises.
  induction offset generalizing time foreman with
  | zero =>
    have orderly := course.orderly_at place time found
    rcases comes with turn | stuck
    · obtain ⟨next, milestones, elapsed, move⟩ := course.moves_at place time found turn
      exact ⟨time, foreman, next, milestones, elapsed, Nat.le_refl time, found, orderly, reached, move⟩
    · obtain ⟨elapsed, blocked⟩ := stuck foreman found
      rw [awaits.able foreman orderly reached elapsed] at blocked
      contradiction
  | succ offset ih =>
    have orderly := course.orderly_at place time found
    by_cases turn : (course.turns time).mover place = some member
    · obtain ⟨next, milestones, elapsed, move⟩ := course.moves_at place time found turn
      exact ⟨time, foreman, next, milestones, elapsed, Nat.le_refl time, found, orderly, reached, move⟩
    · obtain ⟨next, follows, change⟩ := course.change_at place time foreman found
      have still := awaits.lasts foreman next _ _ orderly reached change turn
      have sum : time + 1 + offset = time + (offset + 1) := by omega
      obtain ⟨later, foreman, next, milestones, elapsed, passed, rest⟩ :=
        ih (time + 1) next follows still (by omega) (sum ▸ comes)
      exact ⟨later, foreman, next, milestones, elapsed, Nat.le_of_succ_le passed, rest⟩

def Reaches (course : Course) (place time : Nat) (stage : Foreman → Prop) : Prop :=
  ∃ later foreman, time ≤ later ∧ (course.site later).foremen[place]? = some foreman ∧
    stage foreman

theorem eventually_reaches (fair : course.Fair) {member : Foreman.Member}
    {stage following : Foreman → Prop} (awaits : Foreman.Awaits member stage)
    (brings : ∀ foreman next elapsed milestones, foreman.Orderly → stage foreman →
      foreman.MemberMove next elapsed member milestones → following next)
    {place time : Nat} (reached : course.Reaches place time stage) :
    course.Reaches place time following := by
  obtain ⟨begun, foreman, after, found, reached⟩ := reached
  obtain ⟨later, foreman, next, milestones, elapsed, passed, _, orderly, reached, follows, move, _⟩ :=
    eventually_moves fair awaits place begun foreman found reached
  exact ⟨later + 1, next, by omega, follows,
    brings foreman next elapsed milestones orderly reached move⟩

theorem reaches_now {place time : Nat} {foreman : Foreman} {stage : Foreman → Prop}
    (found : (course.site time).foremen[place]? = some foreman) (reached : stage foreman) :
    course.Reaches place time stage := ⟨time, foreman, Nat.le_refl time, found, reached⟩

end Course
end TenantQueue
