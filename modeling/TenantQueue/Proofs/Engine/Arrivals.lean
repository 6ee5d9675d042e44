import TenantQueue.Proofs.Engine.Traffic
import TenantQueue.Proofs.Queue.Sequence

/-! The tasks that operations add for a tenant. Each that the engine accepts enters one record with the
score of its time and priority. Nothing else enters records but a sweep that gives some back. -/
namespace TenantQueue

structure Arrival where
  task : Task
  time : Instant
  priority : Priority
  deriving DecidableEq

namespace Arrival

def record (arrival : Arrival) : Bytes := arrival.task.encode

def score (arrival : Arrival) : Double := TenantQueue.score arrival.time arrival.priority

def entry (arrival : Arrival) : Double × Bytes := (arrival.score, arrival.record)

end Arrival

namespace Engine

def admitted? (engine : Engine) (queue : String) (tenant : Tenant) (place : String) (owner : Tenant)
    (arrival : Arrival) : Option Arrival :=
  match engine.check place arrival.task with
  | .ok () => if place = queue ∧ owner = tenant then some arrival else none
  | .error _ => none

def arrival? (engine : Engine) (queue : String) (tenant : Tenant) : Operation → Option Arrival
  | .enqueue place taskType owner payload priority queuedOn time =>
    engine.admitted? queue tenant place owner
      ⟨⟨taskType, owner, payload, queuedOn, 0⟩, time, priority⟩
  | .enqueueAt place owner task time priority =>
    engine.admitted? queue tenant place owner ⟨task, time, priority⟩
  | _ => none

def arrivals (engine : Engine) (queue : String) (tenant : Tenant) (operations : List Operation) :
    List Arrival :=
  operations.filterMap (engine.arrival? queue tenant)

def arrivalsOf (engine : Engine) (queue : String) (tenant : Tenant) (priority : Priority)
    (operations : List Operation) : List Arrival :=
  (engine.arrivals queue tenant operations).filter fun arrival => arrival.priority = priority

/-- Nothing enters records for the tenant but the calls that add tasks. -/
def AddsOnly (engine : Engine) (queue : String) (tenant : Tenant) (store : MemoryStore)
    (operations : List Operation) : Prop :=
  entriesFor queue tenant (engine.course store operations) =
    (engine.arrivals queue tenant operations).map Arrival.entry

variable {engine : Engine} {queue : String} {tenant : Tenant}

theorem entriesFor_enqueueAt (store : MemoryStore) (place : String) (owner : Tenant) (task : Task)
    (time : Instant) (priority : Priority) :
    entriesFor queue tenant ((engine.enqueueAt place owner task time priority).calls store) =
      (engine.admitted? queue tenant place owner ⟨task, time, priority⟩).toList.map Arrival.entry := by
  unfold enqueueAt admitted?
  cases engine.check place task with
  | error failure => rfl
  | ok =>
    have pushed : entriesFor queue tenant [.push place owner task.encode (score time priority)] =
        (if place = queue ∧ owner = tenant then some (⟨task, time, priority⟩ : Arrival)
          else none).toList.map Arrival.entry := by
      by_cases own : place = queue ∧ owner = tenant
      · rw [if_pos own]
        exact List.filterMap_cons_some (if_pos own)
      · rw [if_neg own]
        exact List.filterMap_cons_none (if_neg own)
    exact pushed

theorem entriesFor_of_makes {α : Type} {program : Program α} (store : MemoryStore)
    (makes : program.Makes fun call => call.entry? queue tenant = none) :
    entriesFor queue tenant (program.calls store) = [] :=
  List.filterMap_eq_nil_iff.mpr (makes.calls_allowed store)

/-- An operation enters what it adds, unless it sweeps the queue. -/
theorem entriesFor_requests (store : MemoryStore) (operation : Operation)
    (no_sweep : ∀ now, operation ≠ .requeueExpired queue now) :
    entriesFor queue tenant (engine.requests store operation) =
      (engine.arrival? queue tenant operation).toList.map Arrival.entry := by
  cases operation with
  | enqueue place taskType owner payload priority queuedOn time =>
    exact entriesFor_enqueueAt store place owner _ time priority
  | enqueueAt place owner task time priority =>
    exact entriesFor_enqueueAt store place owner task time priority
  | next place => exact entriesFor_of_makes store (makes_next place rfl fun _ => rfl)
  | complete place owner => exact entriesFor_of_makes store (makes_complete place owner rfl)
  | beginProcessing place owner task span now =>
    exact entriesFor_of_makes store (makes_beginProcessing place owner task span now rfl rfl rfl)
  | endProcessing place owner fingerprint =>
    refine entriesFor_of_makes store ?_
    unfold endProcessing
    split
    · trivial
    · exact makes_dropEntry place owner fingerprint rfl rfl
  | requeueExpired place now =>
    have elsewhere : place ≠ queue := by
      rintro rfl
      exact no_sweep now rfl
    exact entriesFor_of_makes store (makes_requeueExpired engine place now rfl (fun _ => rfl)
      (fun _ => rfl) (fun _ _ _ => if_neg fun own => elsewhere own.1) (fun _ => rfl)
      (fun _ _ => rfl) fun _ => rfl)
  | overwrite place fingerprint record => rfl
  | lose place fingerprint => rfl

theorem addsOnly_of_no_sweep (store : MemoryStore) (operations : List Operation)
    (no_sweep : ∀ now, .requeueExpired queue now ∉ operations) :
    engine.AddsOnly queue tenant store operations := by
  unfold AddsOnly
  induction operations generalizing store with
  | nil => rfl
  | cons operation rest ih =>
    have first : entriesFor queue tenant (engine.requests store operation) =
        (engine.arrival? queue tenant operation).toList.map Arrival.entry :=
      entriesFor_requests store operation fun now same => no_sweep now (same ▸ List.mem_cons_self)
    have others := ih (engine.perform store operation)
      fun now member => no_sweep now (List.mem_cons_of_mem operation member)
    rw [course, entriesFor_append, first, others, ← List.map_append]
    unfold arrivals
    cases added : engine.arrival? queue tenant operation with
    | none => rw [List.filterMap_cons_none added, Option.toList_none, List.nil_append]
    | some arrival => rw [List.filterMap_cons_some added, Option.toList_some, List.singleton_append]

end Engine
end TenantQueue
