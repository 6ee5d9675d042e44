import TenantQueue.Proofs.Site.Stages

/-! Every task that a foreman pops is executed once, by the worker that it was popped for, and completed
once. That this happens at all rests on fair turns and on handlers that come to an end: a step of the
assigner or of the worker brings a task from each stage to the next. -/
namespace TenantQueue.Course
variable {course : Course}

/-- A task in the assigner's hand comes into the slot of the worker that it was popped for. -/
theorem hand_reaches_slot (fair : course.Fair) {place time worker : Nat}
    (reached : course.Reaches place time fun foreman => foreman.handFor worker ≠ []) :
    course.Reaches place time fun foreman => foreman.slotOf worker ≠ [] := by
  have popping := Foreman.awaits_assigner worker
    (fun phase => ∃ program task, phase = .popping worker program ∧ Foreman.found? program = some task)
    (by
      rintro foreman ⟨program, task, phase, found⟩
      simp [Foreman.handFor, Foreman.hand?, phase, found])
  have assigning := Foreman.awaits_assigner worker (fun phase => ∃ task, phase = .assigning worker task)
    (by
      rintro foreman ⟨task, phase⟩
      simp [Foreman.handFor, Foreman.hand?, phase])
  have gives (reached : course.Reaches place time fun foreman =>
      ∃ task, foreman.assigner = .assigning worker task) :
      course.Reaches place time fun foreman => foreman.slotOf worker ≠ [] := by
    refine eventually_reaches fair assigning ?_ reached
    rintro foreman next elapsed milestones orderly ⟨task, phase⟩ move
    have assigns := move.of_assigner (assigning.able foreman orderly ⟨task, phase⟩ elapsed)
    rw [phase] at assigns
    obtain ⟨looking, given⟩ := assigns.of_assigning
    simp [Foreman.slotOf, given]
  obtain ⟨later, foreman, passed, found, busy⟩ := reached
  unfold Foreman.handFor Foreman.hand? at busy
  cases phase : foreman.assigner with
  | popping other program =>
    simp only [phase] at busy
    cases got : Foreman.found? program with
    | none => simp [got] at busy
    | some task =>
      simp only [got, Option.map_some, ne_eq, ite_eq_right_iff, List.cons_ne_nil, imp_false,
        not_not] at busy
      subst busy
      refine gives (eventually_reaches fair popping ?_
        ⟨later, foreman, passed, found, program, task, phase, got⟩)
      rintro foreman next elapsed milestones orderly ⟨program, task, phase, got⟩ move
      have assigns := move.of_assigner
        (popping.able foreman orderly ⟨program, task, phase, got⟩ elapsed)
      rw [phase] at assigns
      exact ⟨task, assigns.of_found got⟩
  | assigning other task =>
    simp only [phase, ne_eq, ite_eq_right_iff, List.cons_ne_nil, imp_false, not_not] at busy
    subst busy
    exact gives ⟨later, foreman, passed, found, task, phase⟩
  | _ => simp [phase] at busy

theorem slot_reaches_underWay (fair : course.Fair) {place time worker : Nat}
    (reached : course.Reaches place time fun foreman => foreman.slotOf worker ≠ []) :
    course.Reaches place time fun foreman => foreman.underWay worker ≠ [] := by
  have loaded := Foreman.awaits_worker worker (fun held => held.slot.isSome ∧ held.phase.isOpen)
    (by
      rintro ⟨slot, phase⟩ ⟨present, looks⟩
      cases phase with
      | waiting => exact present
      | draining => exact present
      | _ => contradiction)
  refine eventually_reaches fair loaded ?_ ?_
  · rintro foreman next elapsed milestones orderly ⟨held, found, present, looks⟩ move
    obtain ⟨moved, added, moves, follows⟩ :=
      move.of_worker (loaded.able foreman orderly ⟨held, found, present, looks⟩ elapsed) found
    simp only [Foreman.underWay, follows]
    exact moves.of_loaded present looks
  · obtain ⟨later, foreman, passed, found, busy⟩ := reached
    have orderly := course.orderly_at place later found
    unfold Foreman.slotOf at busy
    cases held : foreman.workers[worker]? with
    | none => simp [held] at busy
    | some current =>
      obtain ⟨slot, phase⟩ := current
      cases slot with
      | none => simp [held] at busy
      | some task =>
        exact ⟨later, foreman, passed, found, _, held, rfl, orderly.loaded worker task phase held⟩

theorem record_prefix (course : Course) (place : Nat) {first last : Nat} (order : first ≤ last) :
    course.record place first <+: course.record place last := by
  induction order with
  | refl => exact List.prefix_refl _
  | step _ ih => exact ih.trans (List.prefix_append _ _)

theorem tasks_prefix (course : Course) (place : Nat) (kind : Milestone.Kind) (worker : Nat)
    {first last : Nat} (order : first ≤ last) :
    course.tasks place kind worker first <+: course.tasks place kind worker last :=
  (course.record_prefix place order).filterMap _

/-- A handler comes to its end, and its worker is about to give the slot of the task back. -/
theorem underWay_reaches_givesBack (fair : course.Fair) (ending : course.HandlersEnd)
    {place time worker : Nat}
    (reached : course.Reaches place time fun foreman => foreman.underWay worker ≠ []) :
    course.Reaches place time fun foreman =>
      ∃ held, foreman.workers[worker]? = some held ∧ held.GivesBack := by
  have ended := Foreman.awaits_worker worker
    (fun held => ∃ slot execution progress, held = ⟨slot, .handling execution progress⟩ ∧
      progress.ending?.isSome) (by
      rintro held ⟨slot, execution, progress, rfl, finished⟩
      exact finished)
  obtain ⟨later, foreman, passed, found, busy⟩ := reached
  unfold Foreman.underWay at busy
  cases held : foreman.workers[worker]? with
  | none => simp [held] at busy
  | some current =>
    obtain ⟨slot, phase⟩ := current
    simp only [held] at busy
    cases phase with
    | releasing execution result program =>
      exact ⟨later, foreman, passed, found, _, held, ⟨execution, result, program, rfl⟩, busy⟩
    | handling execution progress =>
      obtain ⟨last, foreman, slot, progress, after, found, held, finished⟩ :=
        ending place worker later foreman slot execution progress found held
      refine eventually_reaches fair ended ?_
        ⟨last, foreman, Nat.le_trans passed after, found, _, held, slot, execution, progress, rfl, finished⟩
      rintro foreman next elapsed milestones orderly ⟨_, found, slot, execution, progress, rfl, finished⟩ move
      obtain ⟨moved, added, moves, follows⟩ := move.of_worker
        (ended.able foreman orderly ⟨_, found, slot, execution, progress, rfl, finished⟩ elapsed) found
      exact ⟨moved, follows, moves.of_handled⟩
    | _ => simp [Worker.underWay] at busy

theorem eventually_completes (fair : course.Fair) (ending : course.HandlersEnd)
    {place time worker : Nat}
    (reached : course.Reaches place time fun foreman => foreman.underWay worker ≠ []) :
    ∃ later, time ≤ later ∧ (course.tasks place .completed worker time).length <
      (course.tasks place .completed worker later).length := by
  have gives := Foreman.awaits_worker worker Worker.GivesBack (by
    rintro ⟨slot, phase⟩ ⟨⟨execution, result, program, rfl⟩, _⟩
    rfl)
  obtain ⟨begun, foreman, passed, found, reached⟩ := underWay_reaches_givesBack fair ending reached
  obtain ⟨later, foreman, next, milestones, elapsed, after, found, orderly, reached, follows, move, record⟩ :=
    eventually_moves fair gives place begun foreman found reached
  have free := gives.able foreman orderly reached elapsed
  obtain ⟨held, found, back⟩ := reached
  obtain ⟨moved, added, moves, _⟩ := move.of_worker free found
  have more := List.length_pos_iff.mpr (moves.of_givesBack back)
  have before := (course.tasks_prefix place .completed worker (Nat.le_trans passed after)).length_le
  have grown : course.tasks place .completed worker (later + 1) =
      course.tasks place .completed worker later ++ Milestone.tasks .completed worker milestones := by
    rw [tasks, record, Milestone.tasks_append, ← tasks]
  refine ⟨later + 1, by omega, ?_⟩
  rw [grown, List.length_append]
  omega

/-- Where a task is popped and not completed, one more is completed. -/
theorem backlog_falls (fair : course.Fair) (ending : course.HandlersEnd) (place worker time : Nat)
    (behind : (course.tasks place .completed worker time).length <
      (course.tasks place .popped worker time).length) :
    ∃ later, time ≤ later ∧ (course.tasks place .completed worker time).length <
      (course.tasks place .completed worker later).length := by
  cases found : (course.site time).foremen[place]? with
  | none =>
    rw [tasks, tasks, (course.accounted place time).1 found] at behind
    contradiction
  | some foreman =>
    have accounted := (course.accounted place time).2 foreman found
    by_cases busy : foreman.underWay worker = []
    · have waiting : foreman.slotOf worker ++ foreman.handFor worker ≠ [] := by
        intro empty
        rw [tasks, tasks, accounted.popped, accounted.executed, busy, Foreman.waitingFor, empty] at behind
        simp at behind
      have slot : course.Reaches place time fun foreman => foreman.slotOf worker ≠ [] := by
        by_cases empty : foreman.slotOf worker = []
        · rw [empty, List.nil_append] at waiting
          exact hand_reaches_slot fair (reaches_now found waiting)
        · exact reaches_now found empty
      exact eventually_completes fair ending (slot_reaches_underWay fair slot)
    · exact eventually_completes fair ending (reaches_now found busy)

theorem completed_prefix (course : Course) (place worker time : Nat) :
    course.tasks place .completed worker time <+: course.tasks place .popped worker time := by
  cases found : (course.site time).foremen[place]? with
  | none =>
    rw [tasks, tasks, (course.accounted place time).1 found]
    exact List.prefix_refl _
  | some foreman =>
    have accounted := (course.accounted place time).2 foreman found
    rw [tasks, tasks, accounted.popped, accounted.executed, List.append_assoc]
    exact List.prefix_append _ _

/-- All tasks that are popped are completed, in the same order. -/
theorem eventually_completed (fair : course.Fair) (ending : course.HandlersEnd)
    (place worker time : Nat) :
    ∃ later, time ≤ later ∧
      course.tasks place .popped worker time <+: course.tasks place .completed worker later := by
  -- More may be popped meanwhile, so the count is of what is completed and not of what is left.
  have reaches (count : Nat) (within : count ≤ (course.tasks place .popped worker time).length) :
      ∃ later, time ≤ later ∧ count ≤ (course.tasks place .completed worker later).length := by
    induction count with
    | zero => exact ⟨time, Nat.le_refl time, Nat.zero_le _⟩
    | succ count ih =>
      obtain ⟨later, passed, done⟩ := ih (by omega)
      by_cases enough : count + 1 ≤ (course.tasks place .completed worker later).length
      · exact ⟨later, passed, enough⟩
      · have more := (course.tasks_prefix place .popped worker passed).length_le
        obtain ⟨last, after, further⟩ := backlog_falls fair ending place worker later (by omega)
        exact ⟨last, Nat.le_trans passed after, by omega⟩
  obtain ⟨later, passed, done⟩ := reaches _ (Nat.le_refl _)
  exact ⟨later, passed, List.prefix_of_prefix_length_le
    (course.tasks_prefix place .popped worker passed) (course.completed_prefix place worker later) done⟩

/-- Where the stop signal is given, no pop ends that was not under way. -/
theorem stopping_bounds (course : Course) (place time later : Nat) (foreman : Foreman)
    (found : (course.site time).foremen[place]? = some foreman) (stopping : foreman.isStopping)
    (passed : time ≤ later) :
    ∃ last, (course.site later).foremen[place]? = some last ∧ last.isStopping ∧
      Foreman.popCount (course.record place later) + last.assigner.popsUnderWay ≤
        Foreman.popCount (course.record place time) + foreman.assigner.popsUnderWay := by
  induction passed with
  | refl => exact ⟨foreman, found, stopping, Nat.le_refl _⟩
  | @step later passed ih =>
    obtain ⟨last, held, still, bound⟩ := ih
    obtain ⟨next, follows, change⟩ := course.change_at place later last held
    obtain ⟨stays, fewer⟩ := change.stopping still
    refine ⟨next, follows, stays, ?_⟩
    rw [record, Foreman.popCount, List.countP_append]
    unfold Foreman.popCount at bound fewer ⊢
    omega

/-- For every foreman on a store that any number of them share, a task that is popped for a worker is
executed by that worker once and completed once, in the order in which they are popped. Where the stop
signal is given no pop begins, so that at most the one under way ends, and where the foreman has
stopped no task is left. -/
theorem dispatches_exactly_once (course : Course) (place : Nat) :
    (∀ time foreman, (course.site time).foremen[place]? = some foreman →
      (∀ milestone ∈ course.record place time, milestone.worker < foreman.config.poolSize) ∧
      (∀ worker,
        course.tasks place .popped worker time =
          course.tasks place .executed worker time ++ foreman.waitingFor worker ∧
        course.tasks place .executed worker time =
          course.tasks place .completed worker time ++ foreman.underWay worker ∧
        (foreman.waitingFor worker).length ≤ 1 ∧ (foreman.underWay worker).length ≤ 1) ∧
      (foreman.isStopping → foreman.assigner.popsUnderWay ≤ 1 ∧ ∀ later last, time ≤ later →
        (course.site later).foremen[place]? = some last →
        Foreman.popCount (course.record place later) + last.assigner.popsUnderWay ≤
          Foreman.popCount (course.record place time) + foreman.assigner.popsUnderWay) ∧
      (foreman.lifecycle = .stopped →
        (∀ worker, course.tasks place .popped worker time =
          course.tasks place .completed worker time) ∧
        foreman.hand? = none ∧ ∀ worker ∈ foreman.workers, worker = ⟨none, .ended⟩)) ∧
    (course.Fair → course.HandlersEnd → ∀ time worker, ∃ later, time ≤ later ∧
      course.tasks place .popped worker time <+: course.tasks place .completed worker later) := by
  refine ⟨?_, fun fair ending time worker => eventually_completed fair ending place worker time⟩
  intro time foreman found
  have accounted := (course.accounted place time).2 foreman found
  have orderly := accounted.orderly
  refine ⟨accounted.workers, ?_, ?_, ?_⟩
  · intro worker
    exact ⟨accounted.popped worker, accounted.executed worker, orderly.waitingFor_le worker,
      foreman.underWay_le worker⟩
  · intro stopping
    refine ⟨?_, ?_⟩
    · unfold AssignerPhase.popsUnderWay
      split
      · split <;> simp
      · exact Nat.zero_le 1
    · intro later last passed held
      obtain ⟨other, same, _, bound⟩ :=
        course.stopping_bounds place time later foreman found stopping passed
      rw [held, Option.some.injEq] at same
      exact same ▸ bound
  · intro stopped
    obtain ⟨assigner, ended⟩ := orderly.stopped stopped
    refine ⟨?_, ?_, ?_⟩
    · intro worker
      obtain ⟨nothing, idle⟩ := orderly.none_left stopped worker
      rw [tasks, tasks, accounted.popped, accounted.executed, nothing, idle, List.append_nil,
        List.append_nil]
    · rcases assigner with same | same <;> simp [Foreman.hand?, same]
    · intro worker held
      obtain ⟨index, held⟩ := List.mem_iff_getElem?.mp held
      obtain ⟨slot, phase⟩ := worker
      have same := ended index slot phase held
      subst same
      rw [orderly.empty held rfl]

theorem fair_of_stopped (last : Nat) (stopped : ∀ time, last ≤ time →
      ∀ foreman ∈ (course.site time).foremen, foreman.lifecycle = .stopped) : course.Fair := by
  intro place member time
  refine ⟨max time last, Nat.le_max_left time last, Or.inr ?_⟩
  intro foreman found
  exact ⟨0, (course.orderly_at place _ found).stopped_rests
    (stopped _ (Nat.le_max_right time last) foreman (List.mem_of_getElem? found)) 0 member⟩

def letter : Task := ⟨"mail", ⟨1⟩, [0x61], ⟨0, 0⟩, 0⟩

def errand : List Turn :=
  let worker : Turn := .member 0 (.worker 0) ⟨0, ⟨0, 0⟩⟩
  let assigner : Turn := .member 0 .assigner ⟨0, ⟨0, 0⟩⟩
  [.hire ⟨"q", 1, Duration.ofSeconds 1, Duration.ofSeconds 1⟩ Engine.standard
      (Registry.empty.register "mail" fun _ _ => .finished).1 false,
    .start 0, worker, worker, assigner, assigner, assigner, assigner, assigner, assigner,
    worker, worker, worker, worker, worker, .stop 0, assigner, worker, worker, .finish 0]

def delivery : Course where
  store := (MemoryStore.empty.perform (.push "q" ⟨1⟩ letter.encode ⟨0⟩)).2
  turns time := errand.getD time (.outside (.size "q"))

def hasEnded (worker : Worker) : Bool :=
  match worker.phase with
  | .handling _ progress => progress.ending?.isSome
  | _ => true

theorem delivery_rests (offset : Nat) : delivery.site (20 + offset) = delivery.site 20 := by
  have looks (site : Site) : site.step (.outside (.size "q")) = site := rfl
  induction offset with
  | zero => rfl
  | succ offset ih =>
    have idle : delivery.turns (20 + offset) = .outside (.size "q") := by
      have past : errand.length ≤ 20 + offset := Nat.le_add_right 20 offset
      simp only [delivery, List.getD_eq_getElem?_getD, List.getElem?_eq_none past, Option.getD_none]
    rw [← Nat.add_assoc, site, idle, looks, ih]

theorem delivery_fair : delivery.Fair := by
  have stopped : (delivery.site 20).foremen.all fun foreman => foreman.lifecycle = .stopped := by
    decide +kernel
  refine fair_of_stopped 20 ?_
  intro time passed foreman hired
  obtain ⟨offset, rfl⟩ := Nat.exists_eq_add_of_le passed
  rw [delivery_rests] at hired
  simpa using List.all_eq_true.mp stopped foreman hired

theorem delivery_handlersEnd : delivery.HandlersEnd := by
  -- The handler ends as soon as it begins, so no time is found at which it has not ended.
  have early : ∀ time ≤ 20, (delivery.site time).foremen.all fun foreman =>
      foreman.workers.all hasEnded := by
    decide +kernel
  have always (time : Nat) : (delivery.site time).foremen.all fun foreman =>
      foreman.workers.all hasEnded := by
    rcases Nat.le_total time 20 with before | after
    · exact early time before
    · obtain ⟨offset, rfl⟩ := Nat.exists_eq_add_of_le after
      rw [delivery_rests]
      exact early 20 (Nat.le_refl 20)
  intro place index time foreman slot execution progress found held
  have workers := List.all_eq_true.mp (always time) foreman (List.mem_of_getElem? found)
  exact ⟨time, foreman, slot, progress, Nat.le_refl time, found, held,
    List.all_eq_true.mp workers _ (List.mem_of_getElem? held)⟩

theorem delivery_dispatched : delivery.Fair ∧ delivery.HandlersEnd ∧
    delivery.tasks 0 .popped 0 9 = [letter] ∧
    (∃ later, 9 ≤ later ∧ [letter] <+: delivery.tasks 0 .completed 0 later) ∧
    ∃ foreman, (delivery.site 20).foremen[0]? = some foreman ∧ foreman.lifecycle = .stopped ∧
      (∀ worker, delivery.tasks 0 .popped worker 20 = delivery.tasks 0 .completed worker 20) ∧
      foreman.hand? = none ∧ ∀ worker ∈ foreman.workers, worker = ⟨none, .ended⟩ := by
  have popped : delivery.tasks 0 .popped 0 9 = [letter] := by decide +kernel
  have hired : ((delivery.site 20).foremen[0]?.map fun foreman => foreman.lifecycle) = some .stopped := by
    decide +kernel
  obtain ⟨foreman, found, stopped⟩ := Option.map_eq_some_iff.mp hired
  obtain ⟨later, passed, completed⟩ :=
    (dispatches_exactly_once delivery 0).2 delivery_fair delivery_handlersEnd 9 0
  rw [popped] at completed
  exact ⟨delivery_fair, delivery_handlersEnd, popped, ⟨later, passed, completed⟩, foreman, found,
    stopped, ((dispatches_exactly_once delivery 0).1 20 foreman found).2.2.2 stopped⟩

end TenantQueue.Course
