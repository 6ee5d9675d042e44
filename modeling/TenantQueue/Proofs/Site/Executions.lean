import TenantQueue.Proofs.Foreman.Turns
import TenantQueue.Proofs.Site.Shift

/-! All the executions of a run: one after the other on each worker, with one call on the store for each, and
what the counters and the metrics tell of them. The store may be of any kind, and may refuse any call or crash
in it. -/
namespace TenantQueue

structure Counters.Tells (counters : Counters) (results : List TaskResult) : Prop where
  handled : counters.handled = results.countP TaskResult.isHandled
  failed : counters.failed = results.countP TaskResult.isFailure
  crashed : counters.crashed = results.countP TaskResult.isCrash
  unhandled : counters.unhandled = results.countP fun result => !result.isHandled

namespace Counters
variable {counters : Counters} {results : List TaskResult}

theorem Tells.noting (tells : counters.Tells results) (act? : Option Act) (slow : Nat) :
    ({ counters.noting act? with slow } : Counters).Tells
      (results ++ (act?.bind Act.outcome?).toList.map Prod.snd) := by
  obtain ⟨handled, failed, crashed, unhandled⟩ := tells
  have same : counters.Tells (results ++ []) := by
    rw [List.append_nil]
    exact ⟨handled, failed, crashed, unhandled⟩
  cases act? with
  | none => exact ⟨same.handled, same.failed, same.crashed, same.unhandled⟩
  | some act =>
    cases act with
    | ends task result =>
      refine ⟨?_, ?_, ?_, ?_⟩ <;> simp only [Option.bind_some, Act.outcome?, Option.toList_some,
        List.map_singleton, List.countP_append, List.countP_singleton]
      · rw [← handled]
        cases result <;> rfl
      · rw [← failed]
        cases result <;> rfl
      · rw [← crashed]
        cases result <;> rfl
      · rw [← unhandled]
        cases result <;> rfl
    | _ => exact ⟨same.handled, same.failed, same.crashed, same.unhandled⟩

theorem Tells.executions (tells : counters.Tells results) :
    counters.handled + counters.unhandled = results.length := by
  rw [tells.handled, tells.unhandled, List.length_eq_countP_add_countP TaskResult.isHandled]
  simp

theorem Tells.successes (tells : counters.Tells results) :
    counters.failed + counters.crashed + results.countP TaskResult.isSuccess = counters.handled := by
  rw [tells.handled, tells.failed, tells.crashed]
  clear tells
  induction results with
  | nil => rfl
  | cons result rest ih =>
    simp only [List.countP_cons]
    cases result <;> simp only [TaskResult.isFailure, TaskResult.isCrash, TaskResult.isSuccess,
      TaskResult.isHandled, if_true, Bool.false_eq_true, if_false] <;> omega

/-- Where an execution ends, one was under way. -/
theorem noting_busy (counters : Counters) (act? : Option Act)
    (engaged : (act?.bind Act.outcome?).toList.length ≤ counters.busy) :
    (counters.noting act?).busy + (act?.bind Act.outcome?).toList.length =
      counters.busy + act?.toList.countP Act.isBeginning := by
  cases act? with
  | none => rfl
  | some act =>
    cases act with
    | ends task result => exact Nat.sub_add_cancel engaged
    | _ => rfl

end Counters

namespace Foreman
variable {foreman next built : Foreman}

theorem contextOf_setup (same : foreman.setup = built.setup) (index : Nat) :
    foreman.contextOf index = built.contextOf index := by
  obtain ⟨config, engine, -, -⟩ := setup_eq_iff.mp same
  rw [contextOf, contextOf, workerName, workerName, config, engine]

theorem Reports.append {outcomes more : List (Task × TaskResult)} {notices others : List Notice}
    (first : foreman.Reports outcomes notices) (second : foreman.Reports more others) :
    foreman.Reports (outcomes ++ more) (notices ++ others) := by
  intro measured
  rw [Notice.observations_append, List.filter_append]
  exact List.rel_append (first measured) (second measured)

theorem Reports.setup {outcomes : List (Task × TaskResult)} {notices : List Notice}
    (reports : foreman.Reports outcomes notices) (same : foreman.setup = built.setup) :
    built.Reports outcomes notices := by
  obtain ⟨config, -, -, measured⟩ := setup_eq_iff.mp same
  rw [Reports, config, measured] at reports
  exact reports

/-- Where those that are busy are those engaged, a turn keeps count of them. -/
theorem Turn.busy {σ : Type} {backend : Backend σ} {workerAct? : Option WorkerAct}
    (turn : foreman.Turn backend next workerAct?) (engaged : foreman.counters.busy = foreman.engaged) :
    next.counters.busy + (WorkerAct.outcomes workerAct?.toList).length =
      foreman.counters.busy + WorkerAct.begun workerAct?.toList := by
  obtain ⟨slow, counters⟩ := turn.counters
  have counted := turn.engaged
  rw [WorkerAct.outcomes_toList, WorkerAct.begun_toList] at counted ⊢
  rw [counters]
  refine Counters.noting_busy foreman.counters (workerAct?.map WorkerAct.act) ?_
  -- No execution begins in the turn in which one ends.
  cases acted : workerAct?.map WorkerAct.act with
  | none => exact Nat.zero_le _
  | some act =>
    rw [acted] at counted
    cases act with
    | ends task result =>
      rw [engaged]
      exact Nat.le_of_add_left_le counted.le
    | _ => exact Nat.zero_le _

end Foreman

namespace Shift
variable {σ : Type}

def workerAct? (shift : Shift σ) : Event σ → Option WorkerAct
  | .turn moment member => shift.foreman.workerAct? moment.elapsed member
  | _ => none

def workerActs (backend : Backend σ) (shift : Shift σ) : List (Event σ) → List WorkerAct
  | [] => []
  | event :: rest => (shift.workerAct? event).toList ++ (shift.step backend event).workerActs backend rest

structure Chronicled (backend : Backend σ) (built : Foreman) (done : List WorkerAct)
    (shift : Shift σ) : Prop where
  setup : shift.foreman.setup = built.setup
  created : shift.foreman.lifecycle = .created → shift.foreman.workers = []
  quiet : shift.foreman.Quiet
  histories : ∀ index, Worker.History backend built.registry (built.contextOf index)
    (shift.foreman.phaseOf index) (WorkerAct.of index done)
  tells : shift.foreman.counters.Tells (WorkerAct.results done)
  engaged : shift.foreman.counters.busy = shift.foreman.engaged
  begun : WorkerAct.begun done = (WorkerAct.outcomes done).length + shift.foreman.counters.busy
  reported : built.Reports (WorkerAct.outcomes done) shift.notices

variable {backend : Backend σ} {built : Foreman} {done : List WorkerAct} {shift : Shift σ}

theorem begin_chronicled {config : ForemanConfig} {engine : Engine} {registry : Registry} {measured : Bool}
    (building : Foreman.build config engine registry measured = .ok built) (store : σ) :
    (begin built store).Chronicled backend built [] := by
  obtain rfl := Foreman.build_eq building
  refine ⟨rfl, fun _ => rfl, ⟨List.forall_mem_nil _, trivial⟩, ?_, ⟨rfl, rfl, rfl, rfl⟩, rfl, rfl,
    fun _ => .nil⟩
  intro index
  exact ⟨[], [], rfl, List.forall_mem_nil _, .rests _ rfl⟩

theorem Chronicled.turn (chronicled : shift.Chronicled backend built done) (moment : Moment)
    (member : Foreman.Member) :
    (shift.step backend (.turn moment member)).Chronicled backend built
      (done ++ (shift.workerAct? (.turn moment member)).toList) := by
  obtain ⟨turn, reports⟩ := shift.foreman.advance_turn backend moment member shift.store chronicled.quiet
  change (Shift.mk (shift.foreman.advance backend moment member shift.store).1 _ _ _ _
    (shift.notices ++ ownReport (shift.foreman.advance backend moment member shift.store).2.1
      member)).Chronicled backend built (done ++ (shift.foreman.workerAct? moment.elapsed member).toList)
  generalize shift.foreman.workerAct? moment.elapsed member = workerAct? at turn reports
  generalize (shift.foreman.advance backend moment member shift.store).1 = next at turn
  obtain ⟨slow, counters⟩ := turn.counters
  have busy := turn.busy chronicled.engaged
  refine ⟨turn.setup.trans chronicled.setup, ?created, turn.quiet, ?histories, ?tells, ?engaged, ?begun,
    ?reported⟩
  case created =>
    intro same
    exact turn.created (chronicled.created (turn.lifecycle ▸ same))
  case histories =>
    intro index
    have further := turn.phases index
    obtain ⟨-, -, registry, -⟩ := Foreman.setup_eq_iff.mp chronicled.setup
    rw [registry, Foreman.contextOf_setup chronicled.setup] at further
    rw [WorkerAct.of_append, WorkerAct.of_toList]
    exact (chronicled.histories index).turn further
  case tells =>
    have told := chronicled.tells.noting (workerAct?.map WorkerAct.act) slow
    rw [WorkerAct.results_append, WorkerAct.results, WorkerAct.results, WorkerAct.outcomes_toList, counters]
    exact told
  case engaged =>
    have before := chronicled.engaged
    have counted := turn.engaged
    dsimp only
    omega
  case begun =>
    have before := chronicled.begun
    rw [WorkerAct.begun_append, WorkerAct.outcomes_append, List.length_append]
    dsimp only
    omega
  case reported =>
    rw [WorkerAct.outcomes_append]
    refine chronicled.reported.append (Foreman.Reports.setup ?_ chronicled.setup)
    cases member <;> exact reports

theorem Chronicled.changed (chronicled : shift.Chronicled backend built done) {foreman : Foreman}
    {notices : List Notice} (setup : foreman.setup = shift.foreman.setup)
    (counters : foreman.counters = shift.foreman.counters) (quiet : foreman.Quiet)
    (created : foreman.lifecycle = .created → foreman.workers = [])
    (phases : ∀ index, foreman.phaseOf index = shift.foreman.phaseOf index)
    (engaged : foreman.engaged = shift.foreman.engaged) (reports : foreman.Reports [] notices) :
    Chronicled backend built done { shift with foreman, notices := shift.notices ++ notices } := by
  have same := setup.trans chronicled.setup
  refine ⟨same, created, quiet, ?histories, ?tells, ?engaged, ?begun, ?reported⟩
  case histories =>
    intro index
    dsimp only
    rw [phases index]
    exact chronicled.histories index
  case tells =>
    dsimp only
    rw [counters]
    exact chronicled.tells
  case engaged =>
    dsimp only
    rw [counters, engaged]
    exact chronicled.engaged
  case begun =>
    dsimp only
    rw [counters]
    exact chronicled.begun
  case reported =>
    have all := chronicled.reported.append (reports.setup same)
    rwa [List.append_nil] at all

theorem Chronicled.not_created (chronicled : shift.Chronicled backend built done) (lifecycle : Lifecycle)
    (goesOn : lifecycle ≠ .created) {notices : List Notice}
    (unobserved : ∀ notice ∈ notices, notice.Unobserved) :
    Chronicled backend built done
      { shift with foreman := { shift.foreman with lifecycle }, notices := shift.notices ++ notices } :=
  chronicled.changed rfl rfl ⟨chronicled.quiet.workers, chronicled.quiet.assigner⟩
    (fun same => absurd same goesOn) (fun _ => rfl) rfl (Foreman.reports_unobserved _ unobserved)

theorem Chronicled.same (chronicled : shift.Chronicled backend built done) :
    Chronicled backend built done { shift with notices := shift.notices ++ [] } := by
  rw [List.append_nil]
  exact chronicled

theorem Chronicled.start (chronicled : shift.Chronicled backend built done) :
    (shift.step backend .start).Chronicled backend built done := by
  cases stage : shift.foreman.lifecycle with
  | created =>
    have empty := chronicled.created stage
    simp only [Shift.step, Foreman.start, stage]
    refine chronicled.changed rfl rfl ⟨?quiet, chronicled.quiet.assigner⟩ ?begun ?phases ?engaged ?reports
    case quiet =>
      intro worker held
      rw [List.eq_of_mem_replicate held]
      trivial
    case begun =>
      intro same
      cases same
    case phases =>
      intro index
      rw [Foreman.phaseOf, Foreman.phaseOf, empty, List.getElem?_replicate]
      split <;> rfl
    case engaged =>
      rw [Foreman.engaged, Foreman.engaged, empty, List.countP_replicate]
      rfl
    case reports =>
      intro _
      rw [Notice.observations, List.filterMap_cons]
      exact List.forall₂_nil_left_iff.mpr (Foreman.observations_occupancy _)
  | _ =>
    simp only [Shift.step, Foreman.start, stage]
    exact chronicled

theorem Chronicled.stop (chronicled : shift.Chronicled backend built done) :
    (shift.step backend .stop).Chronicled backend built done := by
  have logged (text : String) : ∀ notice ∈ [Notice.log .info text], notice.Unobserved :=
    List.forall_mem_singleton.mpr rfl
  cases stage : shift.foreman.lifecycle <;> simp only [Shift.step, Foreman.requestStop, stage]
  · exact chronicled.not_created .stopped (by decide) (List.forall_mem_nil _)
  · exact chronicled.not_created .stopping (by decide) (logged _)
  · exact chronicled.not_created .stopping (by decide) (logged _)
  · exact chronicled.same

theorem Chronicled.finish (chronicled : shift.Chronicled backend built done) :
    (shift.step backend .finish).Chronicled backend built done := by
  simp only [Shift.step]
  split
  · cases stage : shift.foreman.lifecycle <;> simp only [Foreman.completeStop, stage]
    case stopping =>
      refine chronicled.not_created .stopped (by decide) ?_
      intro notice given
      rcases List.mem_append.mp given with lost | last
      · obtain ⟨message, _, rfl⟩ := List.mem_map.mp lost
        rfl
      · rw [List.mem_singleton.mp last]
        rfl
    all_goals exact chronicled.same
  · exact chronicled

theorem Chronicled.step (chronicled : shift.Chronicled backend built done) (event : Event σ) :
    (shift.step backend event).Chronicled backend built (done ++ (shift.workerAct? event).toList) := by
  cases event with
  | turn moment member => exact chronicled.turn moment member
  | start => exact (List.append_nil done).symm ▸ chronicled.start
  | stop => exact (List.append_nil done).symm ▸ chronicled.stop
  | finish => exact (List.append_nil done).symm ▸ chronicled.finish
  | outside change =>
    rw [show (shift.workerAct? (.outside change)).toList = [] from rfl, List.append_nil]
    exact ⟨chronicled.setup, chronicled.created, chronicled.quiet, chronicled.histories, chronicled.tells,
      chronicled.engaged, chronicled.begun, chronicled.reported⟩

theorem Chronicled.after (chronicled : shift.Chronicled backend built done) (events : List (Event σ)) :
    (shift.after backend events).Chronicled backend built (done ++ shift.workerActs backend events) := by
  induction events generalizing shift done with
  | nil =>
    rw [workerActs, List.append_nil]
    exact chronicled
  | cons event rest ih =>
    rw [workerActs, ← List.append_assoc]
    exact ih (chronicled.step event)

theorem Chronicled.outcomes_counted (chronicled : shift.Chronicled backend built done)
    (measured : built.measured) :
    (Notice.observations shift.notices).countP Observation.isOutcome = (WorkerAct.results done).length := by
  rw [List.countP_eq_length_filter, ← (chronicled.reported measured).length_eq, WorkerAct.results,
    List.length_map]

/-- What one sees of the executions of a run whenever one looks at it. -/
structure Performed (backend : Backend σ) (built : Foreman) (workerActs : List WorkerAct)
    (shift : Shift σ) : Prop where
  /-- Each worker has executed its tasks one after the other. In each execution the handler came first, if there
  is one, and the one call that gives the slot back came after it. -/
  histories : ∀ index, Worker.History backend built.registry (built.contextOf index)
    (shift.foreman.phaseOf index) (WorkerAct.of index workerActs)
  calls : ∀ moment index, (shift.step backend (.turn moment (.worker index))).store =
    match (shift.workerAct? (.turn moment (.worker index))).map WorkerAct.act with
    | some (.calls request) => (backend.perform request shift.store).2
    | _ => shift.store
  busy : WorkerAct.begun workerActs = (WorkerAct.results workerActs).length + shift.foreman.counters.busy
  engaged : shift.foreman.counters.busy = shift.foreman.engaged
  executions : shift.foreman.counters.handled + shift.foreman.counters.unhandled =
    (WorkerAct.results workerActs).length
  failures : shift.foreman.counters.failed + shift.foreman.counters.crashed ≤
    shift.foreman.counters.handled
  successes : shift.foreman.counters.handled - shift.foreman.counters.failed -
    shift.foreman.counters.crashed = (WorkerAct.results workerActs).countP TaskResult.isSuccess
  /-- Whatever the two counters of the metrics showed before, they go on by one with each execution. -/
  measured : built.measured → ∀ metrics : Metrics,
    (metrics.recordAll (Notice.observations shift.notices)).handled.total +
        (metrics.recordAll (Notice.observations shift.notices)).failed.total =
      metrics.handled.total + metrics.failed.total + UInt64.ofNat (WorkerAct.results workerActs).length

theorem Chronicled.performed (chronicled : shift.Chronicled backend built done) :
    shift.Performed backend built done := by
  have executions := chronicled.tells.executions
  have successes := chronicled.tells.successes
  refine ⟨chronicled.histories, ?calls, ?busy, chronicled.engaged, executions, ?failures, ?successes, ?measured⟩
  case calls => exact fun moment index => shift.foreman.advance_state backend moment index shift.store
  case busy =>
    rw [chronicled.begun, WorkerAct.results, List.length_map]
  case failures => omega
  case successes => omega
  case measured =>
    intro measured metrics
    rw [Metrics.total_outcomes, chronicled.outcomes_counted measured]

/-- However a foreman's executions end, on whichever store: each makes one call, for the slot of its task, once
its handler is done, and the counters and the metrics tell of each execution once. -/
theorem executions_performed (backend : Backend σ) (config : ForemanConfig) (engine : Engine)
    (registry : Registry) (measured : Bool) (foreman : Foreman)
    (built : Foreman.build config engine registry measured = .ok foreman) (store : σ)
    (events : List (Event σ)) :
    ((begin foreman store).after backend events).Performed backend foreman
      ((begin foreman store).workerActs backend events) :=
  ((begin_chronicled built store).after events).performed

/-- One worker, and handlers that succeed, fail and crash. The first of them enters its task again as another
one before it ends. -/
def surgery : Foreman :=
  let again : Handler := fun context task => .perform fun now => do
    context.engine.enqueueAt context.queue task.tenant { task with taskType := "unknown" } now .normal
    return .finished
  let registry := (Registry.empty.register "cure" again).1
  let registry := (registry.register "fail" fun _ _ => .failed (.handler "no remedy")).1
  let registry := (registry.register "crash" fun _ _ => .crashed (.raised none)).1
  ⟨⟨"q", 1, Duration.ofSeconds 1, Duration.ofSeconds 1⟩, Engine.standard, registry, true, .created, .zero, [],
    [], .starting⟩

def patients : Disrupted MemoryStore :=
  let enter (store : MemoryStore) (taskType : String) : MemoryStore :=
    (store.perform (.push "q" ⟨1⟩ (⟨taskType, ⟨1⟩, [], ⟨0, 0⟩, 0⟩ : Task).encode ⟨0⟩)).2
  Disrupted.ofStore (["cure", "fail", "crash"].foldl enter MemoryStore.empty)

def visits : List (Event (Disrupted MemoryStore)) :=
  let turn (member : Foreman.Member) : Event (Disrupted MemoryStore) := .turn ⟨0, ⟨0, 0⟩⟩ member
  .start :: (List.replicate 52 [turn .assigner, turn (.worker 0), turn (.handler 0)]).flatten

theorem executions_performed_surgery :
    Foreman.build surgery.config surgery.engine surgery.registry surgery.measured = .ok surgery ∧
    ((begin surgery patients).after grudging visits).foreman.counters = ⟨0, 3, 1, 1, 1, 0⟩ ∧
    (WorkerAct.results ((begin surgery patients).workerActs grudging visits)).length = 4 ∧
    ((begin surgery patients).after grudging visits).Performed grudging surgery
      ((begin surgery patients).workerActs grudging visits) := by
  refine ⟨rfl, by decide +kernel, by decide +kernel, ?_⟩
  exact executions_performed grudging surgery.config surgery.engine surgery.registry surgery.measured surgery
    rfl patients visits

end Shift
end TenantQueue
