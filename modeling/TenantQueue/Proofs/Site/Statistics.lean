import TenantQueue.Proofs.Site.Executions

/-! What new metrics show of a foreman's executions, beside its counters. A task counts as handled for the
counters wherever it had a handler, and for the metrics where it succeeded. -/
namespace TenantQueue

namespace Observation
variable {queue : String} {outcome : Task × TaskResult} {observation : Observation}

theorem Tells.isHandled_eq (tells : observation.Tells queue outcome) :
    observation.isHandled = outcome.2.isSuccess := by
  obtain ⟨seconds, rfl⟩ := tells
  cases outcome.2 <;> rfl

theorem Tells.isAbout (tells : observation.Tells queue outcome) : observation.IsAbout queue := by
  obtain ⟨seconds, rfl⟩ := tells
  cases outcome.2 <;> first | rfl | trivial

theorem countP_told {outcomes : List (Task × TaskResult)} {observations : List Observation}
    (told : List.Forall₂ (Tells queue) outcomes observations) :
    observations.countP isHandled = (outcomes.map Prod.snd).countP TaskResult.isSuccess := by
  induction told with
  | nil => rfl
  | cons tells rest ih => rw [List.map_cons, List.countP_cons, List.countP_cons, ih, tells.isHandled_eq]

theorem isAbout_told {outcomes : List (Task × TaskResult)} {observations : List Observation}
    (told : List.Forall₂ (Tells queue) outcomes observations) :
    ∀ observation ∈ observations, observation.IsAbout queue := by
  induction told with
  | nil => exact List.forall_mem_nil _
  | cons tells rest ih => exact List.forall_mem_cons.mpr ⟨tells.isAbout, ih⟩

end Observation

namespace Shift
variable {σ : Type}

def metrics (shift : Shift σ) : Metrics := Metrics.empty.recordAll (Notice.observations shift.notices)

structure Compared (queue : String) (counters : Counters) (metrics : Metrics) : Prop where
  handled : metrics.handled.sumFor queue id =
    UInt64.ofNat (counters.handled - counters.failed - counters.crashed)
  samples : metrics.durations.sumFor queue Histogram.count =
    counters.handled - counters.failed - counters.crashed
  handled_eq_iff : counters.handled < 2 ^ 64 →
    ((metrics.handled.sumFor queue id).toNat = counters.handled ↔ counters.failed = 0 ∧ counters.crashed = 0)
  samples_eq_iff : metrics.durations.sumFor queue Histogram.count = counters.handled ↔
    counters.failed = 0 ∧ counters.crashed = 0

variable {backend : Backend σ} {built : Foreman} {done : List WorkerAct} {shift : Shift σ}

theorem Chronicled.handled_counted (chronicled : shift.Chronicled backend built done)
    (measured : built.measured) :
    (Notice.observations shift.notices).countP Observation.isHandled =
      shift.foreman.counters.handled - shift.foreman.counters.failed - shift.foreman.counters.crashed := by
  have successes := chronicled.tells.successes
  have told := Observation.countP_told (chronicled.reported measured)
  have each (observation : Observation) : (observation.isHandled && observation.isOutcome) =
      observation.isHandled := by
    cases observation <;> rfl
  rw [List.countP_filter] at told
  simp only [each] at told
  rw [told]
  rw [WorkerAct.results] at successes
  omega

theorem Chronicled.metrics_isAbout (chronicled : shift.Chronicled backend built done)
    (measured : built.measured) : shift.metrics.IsAbout built.config.queue := by
  refine (Metrics.empty_isAbout _).recordAll ?_
  intro observation listed
  have told := Observation.isAbout_told (chronicled.reported measured)
  cases observation with
  | handled queue taskType seconds => exact told _ (List.mem_filter.mpr ⟨listed, rfl⟩)
  | _ => trivial

theorem Chronicled.compared (chronicled : shift.Chronicled backend built done) (measured : built.measured) :
    Compared built.config.queue shift.foreman.counters shift.metrics := by
  obtain ⟨aboutHandled, aboutDurations⟩ := chronicled.metrics_isAbout measured
  have counted := chronicled.handled_counted measured
  have handled : shift.metrics.handled.sumFor built.config.queue id =
      UInt64.ofNat (shift.foreman.counters.handled - shift.foreman.counters.failed -
        shift.foreman.counters.crashed) := by
    rw [aboutHandled.sumFor_eq, ← counted]
    exact (Metrics.total_handled Metrics.empty _).trans (zero_add _)
  have samples : shift.metrics.durations.sumFor built.config.queue Histogram.count =
      shift.foreman.counters.handled - shift.foreman.counters.failed - shift.foreman.counters.crashed := by
    rw [aboutDurations.sumFor_eq, ← counted]
    exact (Metrics.samples_recordAll Metrics.empty _).trans (Nat.zero_add _)
  have successes := chronicled.tells.successes
  refine ⟨handled, samples, ?_, ?_⟩
  · intro small
    rw [handled, UInt64.toNat_ofNat', Nat.mod_eq_of_lt (by omega)]
    omega
  · rw [samples]
    omega

/-- In any run of a foreman with new metrics these show as handled, and as measured, the tasks that succeeded.
So they agree with the foreman's counter just where no handler failed or crashed. -/
theorem metrics_agree_iff (backend : Backend σ) (config : ForemanConfig) (engine : Engine)
    (registry : Registry) (foreman : Foreman)
    (built : Foreman.build config engine registry true = .ok foreman) (store : σ) (events : List (Event σ)) :
    Compared config.queue ((begin foreman store).after backend events).foreman.counters
      ((begin foreman store).after backend events).metrics := by
  have chronicled : ((begin foreman store).after backend events).Chronicled backend foreman
      ([] ++ (begin foreman store).workerActs backend events) := (begin_chronicled built store).after events
  obtain rfl := Foreman.build_eq built
  exact chronicled.compared rfl

def ready : Backend (Disrupted MemoryStore) := Disrupted.backend MemoryStore.backend Disrupted.never

theorem metrics_agree_iff_surgery :
    Foreman.build surgery.config surgery.engine surgery.registry true = .ok surgery ∧
    Compared "q" ((begin surgery patients).after ready visits).foreman.counters
      ((begin surgery patients).after ready visits).metrics :=
  ⟨rfl, metrics_agree_iff ready surgery.config surgery.engine surgery.registry surgery rfl patients visits⟩

/-- Three tasks had a handler, of which the metrics show one. -/
theorem metrics_miss_failures :
    ((begin surgery patients).after ready visits).foreman.stats.counters.handled = 3 ∧
    ((begin surgery patients).after ready visits).metrics.handled.sumFor "q" id = 1 ∧
    ((begin surgery patients).after ready visits).metrics.durations.sumFor "q" Histogram.count = 1 := by
  refine ⟨?_, ?_, ?_⟩ <;> decide +kernel

end Shift
end TenantQueue
