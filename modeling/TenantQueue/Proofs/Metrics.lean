import Mathlib.Algebra.BigOperators.Group.List.Basic
import Mathlib.Data.UInt
import Mathlib.Tactic.Abel
import TenantQueue.Timeline.Basic

/-! What the counters of the metrics come to. A sum over all series of one counter grows with each observation by
what it tells, whichever labels share a series. -/
namespace TenantQueue

namespace Series
variable {α M : Type} [AddCommMonoid M]

def sumOf (weight : Labels → α → M) (series : Series α) : M :=
  (series.toList.map fun sample => weight sample.1 sample.2).sum

/-- What a sample gains by a record, the sum gains. -/
theorem sumOf_set (weight : Labels → α → M) (series : Series α) (labels : Labels) (value : α) (gain : M)
    (new : series.get? labels = none → weight labels value = gain)
    (known : ∀ title old, series.get? labels = some old → weight title value = weight title old + gain) :
    (series.set labels value).sumOf weight = series.sumOf weight + gain := by
  unfold sumOf
  cases found : series.get? labels with
  | none =>
    rw [toList_set_new series labels value found, List.map_append, List.sum_append, List.map_singleton,
      List.sum_singleton, new found]
  | some old =>
    obtain ⟨before, title, after, split, entered⟩ := toList_set_known series labels old value found
    rw [entered, split, List.map_append, List.map_append, List.sum_append, List.sum_append, List.map_cons,
      List.map_cons, List.sum_cons, List.sum_cons, known title old found]
    abel

/-- All samples are about one queue, which is their first label. -/
def IsAbout (queue : String) (series : Series α) : Prop :=
  ∀ sample ∈ series.toList, sample.1.head? = some queue

theorem IsAbout.set {queue : String} {series : Series α} (about : series.IsAbout queue) {labels : Labels}
    (own : labels.head? = some queue) (value : α) : (series.set labels value).IsAbout queue := by
  intro sample listed
  cases found : series.get? labels with
  | none =>
    rw [toList_set_new series labels value found] at listed
    rcases List.mem_append.mp listed with before | last
    · exact about sample before
    · rw [List.mem_singleton.mp last]
      exact own
  | some old =>
    obtain ⟨before, title, after, split, entered⟩ := toList_set_known series labels old value found
    rw [entered] at listed
    rw [IsAbout, split] at about
    simp only [List.mem_append, List.mem_cons] at listed about
    rcases listed with earlier | rfl | later
    · exact about sample (Or.inl earlier)
    · exact about (title, old) (Or.inr (Or.inl rfl))
    · exact about sample (Or.inr (Or.inr later))

def sumFor (queue : String) (weight : α → M) (series : Series α) : M :=
  series.sumOf fun labels value => if labels.head? = some queue then weight value else 0

theorem IsAbout.sumFor_eq {queue : String} {series : Series α} (about : series.IsAbout queue)
    (weight : α → M) : series.sumFor queue weight = series.sumOf fun _ value => weight value := by
  unfold sumFor sumOf
  exact congrArg List.sum (List.map_congr_left fun sample listed => if_pos (about sample listed))

/-- The sum of a counter over all its series. It goes round as each of them does. -/
def total (counter : Series UInt64) : UInt64 := counter.sumOf fun _ count => count

end Series

namespace Observation

def isHandled : Observation → Bool
  | handled _ _ _ => true
  | _ => false

def isFailed : Observation → Bool
  | failed _ _ _ => true
  | _ => false

def isOutcome (observation : Observation) : Bool := observation.isHandled || observation.isFailed

def IsAbout (queue : String) : Observation → Prop
  | handled own _ _ => own = queue
  | _ => True

def redelivered : Observation → Nat
  | requeued _ count => count
  | _ => 0

end Observation

def Notice.observation? : Notice → Option Observation
  | .observed observation => some observation
  | _ => none

def Notice.observations (notices : List Notice) : List Observation := notices.filterMap observation?

@[simp] theorem Notice.observations_append (first second : List Notice) :
    observations (first ++ second) = observations first ++ observations second :=
  List.filterMap_append

namespace Metrics

def recordAll (metrics : Metrics) (observations : List Observation) : Metrics :=
  observations.foldl record metrics

/-- What each observation adds to a measure, all of them add to it in sum. -/
theorem recordAll_gains {M : Type} [AddCommMonoid M] (measure : Metrics → M) (gain : Observation → M)
    (each : ∀ metrics observation,
      measure (metrics.record observation) = measure metrics + gain observation)
    (metrics : Metrics) (observations : List Observation) :
    measure (metrics.recordAll observations) = measure metrics + (observations.map gain).sum := by
  induction observations generalizing metrics with
  | nil => exact (add_zero _).symm
  | cons observation rest ih =>
    have later : measure (metrics.recordAll (observation :: rest)) =
        measure (metrics.record observation) + (rest.map gain).sum := ih (metrics.record observation)
    rw [later, each, List.map_cons, List.sum_cons, add_assoc]

theorem total_set (counter : Series UInt64) (labels : Labels) (amount : Nat) :
    (counter.set labels ((counter.get? labels).getD 0 + UInt64.ofNat amount)).total =
      counter.total + UInt64.ofNat amount := by
  refine Series.sumOf_set _ counter labels _ _ ?_ ?_
  · intro absent
    rw [absent, Option.getD_none, zero_add]
  · intro _ old found
    rw [found, Option.getD_some]

theorem sum_ofNat (observations : List Observation) (amount : Observation → Nat) :
    (observations.map fun observation => UInt64.ofNat (amount observation)).sum =
      UInt64.ofNat (observations.map amount).sum := by
  induction observations with
  | nil => rfl
  | cons observation rest ih =>
    rw [List.map_cons, List.sum_cons, ih, List.map_cons, List.sum_cons, UInt64.ofNat_add]

theorem total_requeued (metrics : Metrics) (observations : List Observation) :
    (metrics.recordAll observations).requeued.total =
      metrics.requeued.total + UInt64.ofNat (observations.map Observation.redelivered).sum := by
  rw [← sum_ofNat]
  refine recordAll_gains (fun metrics => metrics.requeued.total) _ ?_ metrics observations
  intro metrics observation
  cases observation with
  | requeued queue count => exact total_set metrics.requeued [queue] count
  | _ => exact (add_zero _).symm

theorem sum_toNat (observations : List Observation) (kind : Observation → Bool) :
    (observations.map fun observation => (kind observation).toNat).sum = observations.countP kind := by
  induction observations with
  | nil => rfl
  | cons observation rest ih =>
    rw [List.map_cons, List.sum_cons, ih, List.countP_cons, Nat.add_comm]
    cases kind observation <;> rfl

/-- The two counters of executions grow together by one with each that has ended. -/
theorem total_outcomes (metrics : Metrics) (observations : List Observation) :
    (metrics.recordAll observations).handled.total + (metrics.recordAll observations).failed.total =
      metrics.handled.total + metrics.failed.total +
        UInt64.ofNat (observations.countP Observation.isOutcome) := by
  rw [← sum_toNat, ← sum_ofNat]
  refine recordAll_gains (fun metrics => metrics.handled.total + metrics.failed.total) _ ?_ metrics observations
  intro metrics observation
  cases observation with
  | handled queue taskType seconds =>
    have grown : (metrics.record (.handled queue taskType seconds)).handled.total =
      metrics.handled.total + UInt64.ofNat 1 := total_set metrics.handled [queue, taskType] 1
    have same : (metrics.record (.handled queue taskType seconds)).failed.total = metrics.failed.total := rfl
    rw [grown, same, add_right_comm]
    rfl
  | failed queue taskType reason =>
    have grown : (metrics.record (.failed queue taskType reason)).failed.total =
      metrics.failed.total + UInt64.ofNat 1 := total_set metrics.failed [queue, taskType, reason] 1
    have same : (metrics.record (.failed queue taskType reason)).handled.total = metrics.handled.total := rfl
    rw [grown, same, add_assoc]
    rfl
  | _ => exact (add_zero _).symm

theorem total_handled (metrics : Metrics) (observations : List Observation) :
    (metrics.recordAll observations).handled.total =
      metrics.handled.total + UInt64.ofNat (observations.countP Observation.isHandled) := by
  rw [← sum_toNat, ← sum_ofNat]
  refine recordAll_gains (fun metrics => metrics.handled.total) _ ?_ metrics observations
  intro metrics observation
  cases observation with
  | handled queue taskType seconds => exact total_set metrics.handled [queue, taskType] 1
  | _ => exact (add_zero _).symm

def samples (metrics : Metrics) : Nat := metrics.durations.sumOf fun _ histogram => histogram.count

theorem samples_recordAll (metrics : Metrics) (observations : List Observation) :
    (metrics.recordAll observations).samples =
      metrics.samples + observations.countP Observation.isHandled := by
  rw [← sum_toNat]
  refine recordAll_gains samples _ ?_ metrics observations
  intro metrics observation
  cases observation with
  | handled queue taskType seconds =>
    refine Series.sumOf_set _ metrics.durations [queue, taskType] _ 1 ?_ ?_
    · intro absent
      rw [absent]
      rfl
    · intro _ old found
      rw [found]
      rfl
  | _ => rfl

structure IsAbout (queue : String) (metrics : Metrics) : Prop where
  handled : metrics.handled.IsAbout queue
  durations : metrics.durations.IsAbout queue

theorem IsAbout.recordAll {queue : String} {metrics : Metrics} (about : metrics.IsAbout queue)
    {observations : List Observation} (own : ∀ observation ∈ observations, observation.IsAbout queue) :
    (metrics.recordAll observations).IsAbout queue := by
  induction observations generalizing metrics with
  | nil => exact about
  | cons observation rest ih =>
    obtain ⟨first, others⟩ := List.forall_mem_cons.mp own
    refine ih ?_ others
    cases observation with
    | handled name taskType seconds =>
      have named : List.head? [name, taskType] = some queue := congrArg some first
      exact ⟨about.handled.set named _, about.durations.set named _⟩
    | _ => exact ⟨about.handled, about.durations⟩

theorem empty_isAbout (queue : String) : empty.IsAbout queue :=
  ⟨List.forall_mem_nil _, List.forall_mem_nil _⟩

end Metrics

/-- A timeline's metrics have taken note of just what was observed in the notices that it was given. -/
theorem Timeline.metrics_note (timeline : Timeline) (notices : List Notice) :
    (timeline.note notices).metrics = timeline.metrics.recordAll (Notice.observations notices) := by
  induction notices generalizing timeline with
  | nil => rfl
  | cons notice rest ih =>
    have later := ih (timeline.noteOne notice)
    cases notice <;> exact later

end TenantQueue
