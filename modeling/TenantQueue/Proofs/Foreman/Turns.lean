import TenantQueue.Proofs.Foreman.Assigner
import TenantQueue.Proofs.Foreman.Conduct

/-! What a turn of a member is to the executions of tasks: what is done in it, which phases the workers come
to, how the counters change, and what the metrics take note of. -/
namespace TenantQueue

def Notice.Unobserved (notice : Notice) : Prop := notice.observation? = none

def Observation.Tells (queue : String) (outcome : Task × TaskResult) (observation : Observation) : Prop :=
  ∃ seconds, observation = outcome.2.observation queue outcome.1.taskType seconds

/-- The counters after an act. How many executions were slow is left out. -/
def Counters.noting (counters : Counters) : Option Act → Counters
  | some (.begins _ _) => { counters with busy := counters.busy + 1 }
  | some (.ends _ result) => { counters.count result with busy := counters.busy - 1 }
  | _ => counters

def WorkerAct.at? (index : Nat) (workerAct : WorkerAct) : Option Act :=
  if workerAct.worker = index then some workerAct.act else none

theorem WorkerAct.of_toList (index : Nat) (workerAct? : Option WorkerAct) :
    of index workerAct?.toList = (workerAct?.bind (at? index)).toList := by
  cases workerAct? with
  | none => rfl
  | some workerAct =>
    simp only [of, at?, Option.toList_some, Option.bind_some, List.filterMap_cons, List.filterMap_nil]
    split <;> simp_all

@[simp] theorem WorkerAct.at?_map (index other : Nat) (act? : Option Act) :
    (act?.map (WorkerAct.mk index)).bind (at? other) = if index = other then act? else none := by
  cases act? with
  | none => simp
  | some act => simp [at?]

theorem WorkerAct.outcomes_toList (workerAct? : Option WorkerAct) :
    outcomes workerAct?.toList = ((workerAct?.map act).bind Act.outcome?).toList := by
  cases workerAct? with
  | none => rfl
  | some workerAct =>
    rw [outcomes, Option.toList_some, List.filterMap_cons, List.filterMap_nil, Option.map_some,
      Option.bind_some]
    cases workerAct.act.outcome? <;> rfl

theorem WorkerAct.begun_toList (workerAct? : Option WorkerAct) :
    begun workerAct?.toList = (workerAct?.map act).toList.countP Act.isBeginning := by
  cases workerAct? <;> rfl

theorem WorkerAct.map_act (index : Nat) (act? : Option Act) :
    (act?.map (WorkerAct.mk index)).map act = act? := by
  cases act? <;> rfl

def WorkerPhase.hold (phase : WorkerPhase) : Nat := if phase.isEngaged then 1 else 0

theorem WorkerPhase.hold_idle {phase : WorkerPhase} (idle : phase.isEngaged = false) : phase.hold = 0 := by
  rw [hold, idle]
  rfl

theorem PhaseTurn.hold {σ : Type} {backend : Backend σ} {registry : Registry} {context : HandlerContext}
    {phase next : WorkerPhase} {act? : Option Act}
    (turn : PhaseTurn backend registry context phase act? next) :
    next.hold + (act?.bind Act.outcome?).toList.length =
      phase.hold + act?.toList.countP Act.isBeginning := by
  cases turn with
  | stays phase => rfl
  | rests idle still =>
    rw [WorkerPhase.hold_idle idle, WorkerPhase.hold_idle still]
    rfl
  | takes idle task since leaving handler known =>
    rw [WorkerPhase.hold_idle idle]
    rfl
  | refuses idle task since leaving unknown =>
    rw [WorkerPhase.hold_idle idle]
    rfl
  | ends execution result program phase ended still =>
    rw [WorkerPhase.hold_idle still]
    rfl
  | proceeds execution result program state unended => cases program.asked? <;> rfl
  | _ => rfl

def WorkerPhase.Quiet : WorkerPhase → Prop
  | releasing _ _ program => program.Notes Notice.Unobserved
  | _ => True

namespace Foreman
variable {σ : Type}

def contextOf (foreman : Foreman) (index : Nat) : HandlerContext :=
  ⟨foreman.engine, foreman.config.queue, foreman.workerName index⟩

/-- The phase of a worker. One that is not there yet has yet to start. -/
def phaseOf (foreman : Foreman) (index : Nat) : WorkerPhase :=
  foreman.workers[index]?.elim .starting Worker.phase

/-- How many workers have an execution in their hands, or were broken off with one. -/
def engaged (foreman : Foreman) : Nat :=
  foreman.workers.countP fun worker => worker.phase.isEngaged

structure Quiet (foreman : Foreman) : Prop where
  workers : ∀ worker ∈ foreman.workers, worker.phase.Quiet
  assigner : foreman.assigner.Notes Notice.Unobserved

def actOf? (foreman : Foreman) (worker : Worker) : Option Act :=
  match worker.phase with
  | .waiting => worker.slot.map fun task => .begins task (foreman.registry.get? task.taskType).isSome
  | .draining => worker.slot.map fun task => .begins task (foreman.registry.get? task.taskType).isSome
  | .handling _ progress => progress.ending?.map .sees
  | .releasing execution result program =>
    match program.outcome? with
    | none => program.asked?.map .calls
    | some (.crashed _) => none
    | some _ => some (.ends execution.task result)
  | _ => none

def workerAct? (foreman : Foreman) (elapsed : Nat) (member : Member) : Option WorkerAct :=
  if foreman.canAdvance elapsed member then
    match member with
    | .worker index => (foreman.workers[index]?.bind foreman.actOf?).map fun act => ⟨index, act⟩
    | .handler index => some ⟨index, .works⟩
    | .assigner => none
  else none

structure Turn (backend : Backend σ) (foreman next : Foreman) (workerAct? : Option WorkerAct) : Prop where
  setup : next.setup = foreman.setup
  lifecycle : next.lifecycle = foreman.lifecycle
  created : foreman.workers = [] → next.workers = []
  phases : ∀ index, PhaseTurn backend foreman.registry (foreman.contextOf index) (foreman.phaseOf index)
    (workerAct?.bind (WorkerAct.at? index)) (next.phaseOf index)
  engaged : next.engaged + (WorkerAct.outcomes workerAct?.toList).length =
    foreman.engaged + WorkerAct.begun workerAct?.toList
  counters : ∃ slow, next.counters = { foreman.counters.noting (workerAct?.map WorkerAct.act) with slow }
  quiet : next.Quiet

def Reports (foreman : Foreman) (outcomes : List (Task × TaskResult)) (notices : List Notice) : Prop :=
  foreman.measured → List.Forall₂ (Observation.Tells foreman.config.queue) outcomes
    ((Notice.observations notices).filter Observation.isOutcome)

structure WorkerTurn (backend : Backend σ) (foreman next : Foreman) (index : Nat) (worker moved : Worker)
    (act? : Option Act) (notices : List Notice) : Prop where
  setup : next.setup = foreman.setup
  lifecycle : next.lifecycle = foreman.lifecycle
  assigner : next.assigner = foreman.assigner
  workers : next.workers = foreman.workers.set index moved
  phase : PhaseTurn backend foreman.registry (foreman.contextOf index) worker.phase act? moved.phase
  counters : ∃ slow, next.counters = { foreman.counters.noting act? with slow }
  quiet : moved.phase.Quiet
  reports : foreman.Reports (act?.bind Act.outcome?).toList notices

theorem reports_unobserved (foreman : Foreman) {notices : List Notice}
    (unobserved : ∀ notice ∈ notices, notice.Unobserved) : foreman.Reports [] notices := by
  intro _
  have nothing : Notice.observations notices = [] := List.filterMap_eq_nil_iff.mpr unobserved
  rw [nothing]
  exact .nil

theorem observations_occupancy (foreman : Foreman) :
    (Notice.observations foreman.occupancy).filter Observation.isOutcome = [] := by
  unfold occupancy
  split <;> rfl

theorem execute_turn (backend : Backend σ) (foreman : Foreman) (index : Nat) (task : Task)
    (phase : WorkerPhase) (elapsed : Nat) (leaving : Bool) (idle : phase.isEngaged = false) :
    ∃ moved, foreman.WorkerTurn backend (foreman.execute index task elapsed leaving).1 index
      ⟨some task, phase⟩ moved (some (.begins task (foreman.registry.get? task.taskType).isSome))
      (foreman.execute index task elapsed leaving).2 := by
  have reports : foreman.Reports [] (foreman.execute index task elapsed leaving).2 := by
    intro _
    rw [execute, observations_occupancy]
    exact .nil
  cases handled : foreman.registry.get? task.taskType with
  | none =>
    exact ⟨⟨none, .releasing ⟨task, elapsed, leaving⟩ .unhandled
        (Engine.releaseSlot foreman.config.queue task.tenant)⟩,
      rfl, rfl, rfl, by simp only [execute, handled]; rfl, .refuses idle task elapsed leaving handled,
      ⟨_, rfl⟩, Engine.notes_releaseSlot (fun _ _ => rfl) _ _, reports⟩
  | some handler =>
    exact ⟨⟨none, .handling ⟨task, elapsed, leaving⟩ (.ready (handler (foreman.contextOf index) task))⟩,
      rfl, rfl, rfl, by simp only [execute, handled]; rfl, .takes idle task elapsed leaving handler handled,
      ⟨_, rfl⟩, trivial, reports⟩

theorem account_reports_outcome (foreman : Foreman) (index : Nat) (execution : Execution)
    (result : TaskResult) (elapsed : Nat) :
    foreman.Reports [(execution.task, result)] (foreman.account index execution result elapsed).2 := by
  intro measured
  have logged (notice : Notice) (rest : List Notice) (unobserved : notice.Unobserved) :
      Notice.observations (notice :: rest) = Notice.observations rest := by
    rw [Notice.observations, List.filterMap_cons, unobserved]
    rfl
  have slow (span : Duration) :
      Notice.observations (foreman.slowNotices index execution.task span) = [] := by
    unfold slowNotices
    split <;> rfl
  simp only [account]
  rw [logged _ _ (by cases result <;> rfl), Notice.observations_append, Notice.observations_append, slow,
    List.nil_append, List.filter_append, observations_occupancy, List.append_nil]
  unfold resultObservations
  rw [if_pos measured]
  have told : Observation.Tells foreman.config.queue (execution.task, result) (result.observation
      foreman.config.queue execution.task.taskType (Duration.ofMilliseconds (elapsed - execution.since)).seconds) :=
    ⟨_, rfl⟩
  cases result <;> exact .cons told .nil

theorem account_counters (foreman : Foreman) (index : Nat) (execution : Execution) (result : TaskResult)
    (elapsed : Nat) :
    ∃ slow, (foreman.account index execution result elapsed).1.counters =
      { foreman.counters.noting (some (.ends execution.task result)) with slow } := by
  cases result <;> exact ⟨_, rfl⟩

theorem releasing_turn (backend : Backend σ) (moment : Moment) (foreman : Foreman) (index : Nat)
    (slot : Option Task) (execution : Execution) (result : TaskResult) (program : Program Unit) (state : σ)
    (quiet : program.Notes Notice.Unobserved) :
    ∃ moved, foreman.WorkerTurn backend
      (foreman.advanceWorker backend moment index ⟨slot, .releasing execution result program⟩ state).1
      index ⟨slot, .releasing execution result program⟩ moved
      (foreman.actOf? ⟨slot, .releasing execution result program⟩)
      (foreman.advanceWorker backend moment index ⟨slot, .releasing execution result program⟩ state).2.1 := by
  -- The program is over, and its worker counts the result.
  have counts (ended : program.outcome?.isSome) : ∃ moved, foreman.WorkerTurn backend
      ((foreman.setWorker index ⟨slot, if execution.leaving then .draining else .announcing⟩).account
        index execution result moment.elapsed).1
      index ⟨slot, .releasing execution result program⟩ moved (some (.ends execution.task result))
      ((foreman.setWorker index ⟨slot, if execution.leaving then .draining else .announcing⟩).account
        index execution result moment.elapsed).2 := by
    refine ⟨⟨slot, if execution.leaving then .draining else .announcing⟩, rfl, rfl, rfl, rfl, ?phase,
      account_counters _ index execution result moment.elapsed, ?quiet,
      account_reports_outcome _ index execution result moment.elapsed⟩
    case phase =>
      refine .ends execution result program _ ended ?_
      dsimp only
      split <;> rfl
    case quiet =>
      dsimp only
      split <;> trivial
  simp only [advanceWorker, actOf?]
  cases ended : program.outcome? with
  | none =>
    obtain ⟨following, unobserved⟩ := program.step_notes backend state quiet
    have proceeds : PhaseTurn backend foreman.registry (foreman.contextOf index)
        (.releasing execution result program) (program.asked?.map .calls)
        (.releasing execution result (program.step backend state).1) :=
      .proceeds execution result program state ended
    dsimp only
    refine ⟨⟨slot, .releasing execution result (program.step backend state).1⟩, rfl, rfl, rfl, rfl,
      proceeds, ?counters, following, ?reports⟩
    case counters => cases program.asked? <;> exact ⟨_, rfl⟩
    case reports =>
      cases program.asked? <;> exact foreman.reports_unobserved unobserved
  | some outcome =>
    have finished : program.outcome?.isSome := by rw [ended]; rfl
    cases outcome with
    | crashed crash =>
      exact ⟨⟨slot, .lost crash⟩, rfl, rfl, rfl, rfl, .breaks execution result program crash finished, ⟨_, rfl⟩,
        trivial, foreman.reports_unobserved (List.forall_mem_nil _)⟩
    | ok value => exact counts finished
    | failed failure => exact counts finished

theorem advanceWorker_turn (backend : Backend σ) (moment : Moment) (foreman : Foreman) (index : Nat)
    (worker : Worker) (state : σ) (found : foreman.workers[index]? = some worker)
    (quiet : worker.phase.Quiet) :
    ∃ moved, foreman.WorkerTurn backend (foreman.advanceWorker backend moment index worker state).1 index
      worker moved (foreman.actOf? worker)
      (foreman.advanceWorker backend moment index worker state).2.1 := by
  have logged (severity : Severity) (text : String) : foreman.Reports [] [.log severity text] :=
    foreman.reports_unobserved (List.forall_mem_singleton.mpr rfl)
  have unheard : foreman.Reports [] [] := foreman.reports_unobserved (List.forall_mem_nil _)
  have waits : foreman.WorkerTurn backend foreman index worker worker none [] := by
    obtain ⟨inside, here⟩ := List.getElem?_eq_some_iff.mp found
    refine ⟨rfl, rfl, rfl, ?_, .stays _, ⟨_, rfl⟩, quiet, unheard⟩
    rw [← here, List.set_getElem_self]
  obtain ⟨slot, phase⟩ := worker
  cases phase with
  | starting => exact ⟨⟨slot, .announcing⟩, rfl, rfl, rfl, rfl, .rests rfl rfl, ⟨_, rfl⟩, trivial, logged _ _⟩
  | announcing =>
    simp only [advanceWorker, actOf?]
    split
    · exact ⟨⟨slot, .draining⟩, rfl, rfl, rfl, rfl, .rests rfl rfl, ⟨_, rfl⟩, trivial, unheard⟩
    · split
      · exact ⟨⟨slot, .waiting⟩, rfl, rfl, rfl, rfl, .rests rfl rfl, ⟨_, rfl⟩, trivial, unheard⟩
      · exact ⟨_, waits⟩
  | waiting =>
    cases slot with
    | some task => exact execute_turn backend foreman index task .waiting moment.elapsed false rfl
    | none =>
      simp only [advanceWorker, actOf?, Option.map_none]
      split
      · exact ⟨⟨none, .draining⟩, rfl, rfl, rfl, rfl, .rests rfl rfl, ⟨_, rfl⟩, trivial, unheard⟩
      · exact ⟨_, waits⟩
  | draining =>
    cases slot with
    | some task => exact execute_turn backend foreman index task .draining moment.elapsed true rfl
    | none =>
      simp only [advanceWorker, actOf?, Option.map_none]
      split
      · exact ⟨⟨none, .ended⟩, rfl, rfl, rfl, rfl, .rests rfl rfl, ⟨_, rfl⟩, trivial, logged _ _⟩
      · exact ⟨_, waits⟩
  | handling execution progress =>
    simp only [advanceWorker, actOf?]
    cases ended : progress.ending? with
    | none => exact ⟨_, waits⟩
    | some ending =>
      exact ⟨⟨slot, .releasing execution (.ofEnding ending)
          (Engine.releaseSlot foreman.config.queue execution.task.tenant)⟩, rfl, rfl, rfl, rfl,
        .sees execution progress ending ended, ⟨_, rfl⟩, Engine.notes_releaseSlot (fun _ _ => rfl) _ _,
        unheard⟩
  | releasing execution result program =>
    exact releasing_turn backend moment foreman index slot execution result program state quiet
  | ended => exact ⟨_, waits⟩
  | lost crash => exact ⟨_, waits⟩

theorem advanceHandler_turn (backend : Backend σ) (moment : Moment) (foreman : Foreman) (index : Nat)
    (slot : Option Task) (execution : Execution) (progress : Job.Progress) (state : σ) :
    ∃ moved, foreman.WorkerTurn backend
      (foreman.advanceHandler backend moment index ⟨slot, .handling execution progress⟩ state).1 index
      ⟨slot, .handling execution progress⟩ moved (some .works) [] :=
  ⟨⟨slot, .handling execution (progress.advance backend moment foreman.isStopping state).1⟩, rfl, rfl, rfl,
    rfl, .works execution progress moment foreman.isStopping state, ⟨_, rfl⟩, trivial,
    foreman.reports_unobserved (List.forall_mem_nil _)⟩

theorem engaged_set {foreman next : Foreman} {index : Nat} {worker moved : Worker}
    (found : foreman.workers[index]? = some worker)
    (workers : next.workers = foreman.workers.set index moved) :
    next.engaged + worker.phase.hold = foreman.engaged + moved.phase.hold := by
  rw [engaged, workers]
  exact countP_moved (fun worker => worker.phase.isEngaged) found

theorem WorkerTurn.turn {backend : Backend σ} {foreman next : Foreman} {index : Nat} {worker moved : Worker}
    {act? : Option Act} {notices : List Notice}
    (turn : foreman.WorkerTurn backend next index worker moved act? notices)
    (found : foreman.workers[index]? = some worker) (quiet : foreman.Quiet) :
    foreman.Turn backend next (act?.map (WorkerAct.mk index)) := by
  have look := getElem?_moved found turn.workers
  refine ⟨turn.setup, turn.lifecycle, ?created, ?phases, ?engaged, ?counters, ?quiet⟩
  case created =>
    intro empty
    rw [empty] at found
    contradiction
  case phases =>
    intro other
    rw [WorkerAct.at?_map, phaseOf, phaseOf, look]
    by_cases same : other = index
    · subst same
      rw [if_pos rfl, if_pos rfl, found]
      exact turn.phase
    · rw [if_neg same, if_neg (Ne.symm same)]
      exact .stays _
  case engaged =>
    have counted := engaged_set found turn.workers
    have held := turn.phase.hold
    rw [WorkerAct.outcomes_toList, WorkerAct.begun_toList, WorkerAct.map_act]
    omega
  case counters =>
    rw [WorkerAct.map_act]
    exact turn.counters
  case quiet =>
    refine ⟨?_, turn.assigner ▸ quiet.assigner⟩
    intro other held
    rw [turn.workers] at held
    rcases List.mem_or_eq_of_mem_set held with present | rfl
    · exact quiet.workers other present
    · exact turn.quiet

theorem AssignerTurn.turn {backend : Backend σ} {foreman next : Foreman} {notices : List Notice}
    (turn : foreman.AssignerTurn Notice.Unobserved next notices) (quiet : foreman.Quiet) :
    foreman.Turn backend next none := by
  have phases (index : Nat) : next.phaseOf index = foreman.phaseOf index := by
    have same : (next.workers.map Worker.phase)[index]? = (foreman.workers.map Worker.phase)[index]? := by
      rw [turn.workers]
    rw [List.getElem?_map, List.getElem?_map] at same
    rw [phaseOf, phaseOf]
    cases there : next.workers[index]? <;> cases here : foreman.workers[index]? <;> simp_all
  refine ⟨turn.setup, turn.lifecycle, ?created, ?phases, ?engaged, ⟨_, turn.counters⟩, ?quiet⟩
  case created =>
    intro empty
    have same := turn.workers
    rw [empty] at same
    exact List.map_eq_nil_iff.mp same
  case phases =>
    intro index
    rw [phases index]
    exact .stays _
  case engaged =>
    have counted (workers : List Worker) : workers.countP (fun worker => worker.phase.isEngaged) =
        (workers.map Worker.phase).countP WorkerPhase.isEngaged := by
      rw [List.countP_map]
      rfl
    rw [engaged, counted, turn.workers, engaged, counted]
    rfl
  case quiet =>
    refine ⟨?_, turn.following⟩
    intro worker held
    have listed : worker.phase ∈ foreman.workers.map Worker.phase := by
      rw [← turn.workers]
      exact List.mem_map_of_mem held
    obtain ⟨other, present, same⟩ := List.mem_map.mp listed
    exact same ▸ quiet.workers other present

/-- In the turn of any member executions go on, and what the foreman and its workers report in it is how an
execution ends in it. -/
theorem advance_turn (backend : Backend σ) (moment : Moment) (member : Member) (foreman : Foreman)
    (state : σ) (quiet : foreman.Quiet) :
    foreman.Turn backend (foreman.advance backend moment member state).1
        (foreman.workerAct? moment.elapsed member) ∧
      foreman.Reports (WorkerAct.outcomes (foreman.workerAct? moment.elapsed member).toList)
        (match member with
          | .handler _ => []
          | _ => (foreman.advance backend moment member state).2.1) := by
  have waits : foreman.Turn backend foreman none ∧ foreman.Reports [] [] :=
    ⟨⟨rfl, rfl, id, fun index => .stays _, rfl, ⟨_, rfl⟩, quiet⟩,
      foreman.reports_unobserved (List.forall_mem_nil _)⟩
  cases free : foreman.canAdvance moment.elapsed member with
  | false =>
    simp only [advance, workerAct?, free, Bool.false_eq_true, if_false]
    cases member <;> exact waits
  | true =>
    simp only [advance, workerAct?, free, if_true]
    cases member with
    | worker index =>
      cases found : foreman.workers[index]? with
      | none => simp [canAdvance, found] at free
      | some worker =>
        obtain ⟨moved, turn⟩ := advanceWorker_turn backend moment foreman index worker state found
          (quiet.workers worker (List.mem_of_getElem? found))
        simp only [found, Option.bind_some]
        refine ⟨turn.turn found quiet, ?_⟩
        rw [WorkerAct.outcomes_toList]
        exact (WorkerAct.map_act index (foreman.actOf? worker)).symm ▸ turn.reports
    | handler index =>
      cases found : foreman.workers[index]? with
      | none => simp [canAdvance, found] at free
      | some worker =>
        obtain ⟨slot, phase⟩ := worker
        cases phase with
        | handling execution progress =>
          obtain ⟨moved, turn⟩ :=
            advanceHandler_turn backend moment foreman index slot execution progress state
          simp only [found]
          exact ⟨turn.turn found quiet, turn.reports⟩
        | _ => simp [canAdvance, found] at free
    | assigner =>
      have turn := advanceAssigner_turn (fun _ _ => rfl) backend moment foreman state quiet.assigner
      exact ⟨turn.turn quiet, foreman.reports_unobserved turn.notices⟩

/-- A worker changes the store by nothing but the call that it makes. -/
theorem advance_state (backend : Backend σ) (moment : Moment) (index : Nat) (foreman : Foreman) (state : σ) :
    (foreman.advance backend moment (.worker index) state).2.2 =
      match (foreman.workerAct? moment.elapsed (.worker index)).map WorkerAct.act with
      | some (.calls request) => (backend.perform request state).2
      | _ => state := by
  cases free : foreman.canAdvance moment.elapsed (.worker index) with
  | false => simp only [advance, workerAct?, free, Bool.false_eq_true, if_false, Option.map_none]
  | true =>
    simp only [advance, workerAct?, free, if_true, Option.map_map]
    cases found : foreman.workers[index]? with
    | none => simp
    | some worker =>
      obtain ⟨slot, phase⟩ := worker
      cases phase with
      | releasing execution result program =>
        simp only [advanceWorker, actOf?, Option.bind_some]
        cases ended : program.outcome? with
        | none =>
          simp only [Program.step_state]
          cases program.asked? <;> rfl
        | some outcome => cases outcome <;> rfl
      | handling execution progress =>
        simp only [advanceWorker, actOf?, Option.bind_some]
        cases progress.ending? <;> rfl
      | announcing =>
        simp only [advanceWorker]
        split
        · rfl
        · split <;> rfl
      | waiting =>
        cases slot with
        | some task => rfl
        | none =>
          simp only [advanceWorker]
          split <;> rfl
      | draining =>
        cases slot with
        | some task => rfl
        | none =>
          simp only [advanceWorker]
          split <;> rfl
      | _ => rfl

end Foreman
end TenantQueue
