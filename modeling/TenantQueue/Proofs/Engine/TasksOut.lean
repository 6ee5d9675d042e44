import TenantQueue.Proofs.Engine.Operations
import Mathlib

/-! The tasks that are out: those that were popped and are not completed. The registry keeps a count of
them for each tenant, which is compared with how many of them there are. -/
namespace TenantQueue

namespace MemoryStore
open Program

def taken? (queue : String) (store : MemoryStore) : Option (Tenant × Bytes) :=
  match (popUntil backend queue store).1 with
  | .ok found => found
  | _ => none

/-- The task that the next serving hands out, with the tenant from whose records it is taken. -/
def handed? (queue : String) (store : MemoryStore) : Option (Tenant × Task) :=
  match store.taken? queue with
  | some (tenant, record) => (Task.decode record).toOption.map fun task => (tenant, task)
  | none => none

/-- How the next serving ends, by what it takes and what it hands out. -/
theorem next_hands (store : MemoryStore) (queue : String) (sound : store.Sound) :
    (store.taken? queue = none ∧ store.handed? queue = none ∧
      (∀ tenant, ¬(store.queue queue).Waits tenant) ∧
      (store.queue queue).Clears (((Engine.next queue).leaves store).queue queue)) ∨
    ∃ tenant record count, store.taken? queue = some (tenant, record) ∧
      ((∃ task, Task.decode record = .ok task ∧ store.handed? queue = some (tenant, task) ∧
        (store.queue queue).Serves (((Engine.next queue).leaves store).queue queue) tenant record
          count (count + 1)) ∨
      (store.handed? queue = none ∧
        (store.queue queue).Serves (((Engine.next queue).leaves store).queue queue) tenant record
          count count)) := by
  obtain ⟨outcome, notices, last, _, ran, _, _, _, _, selected⟩ :=
    Engine.next_selects store queue sound
  rw [Program.leaves, ran]
  rcases selected with ⟨found, _, nobody, clears⟩ | ⟨tenant, record, count, found, ended⟩
  · have nothing : store.taken? queue = none := by rw [taken?, found]
    exact Or.inl ⟨nothing, by rw [handed?, nothing], nobody, clears⟩
  · have taken : store.taken? queue = some (tenant, record) := by rw [taken?, found]
    refine Or.inr ⟨tenant, record, count, taken, ?_⟩
    rcases ended with ⟨task, decoded, _, serves⟩ | ⟨decoded, _, serves⟩
    · refine Or.inl ⟨task, decoded, ?_, serves⟩
      simp only [handed?, taken, decoded, Except.toOption, Option.map_some]
    · refine Or.inr ⟨?_, serves⟩
      simp only [handed?, taken, decoded, Except.toOption, Option.map_none]

end MemoryStore

def Operation.handed? (queue : String) (store : MemoryStore) : Operation → Option (Tenant × Task)
  | .next name => if name = queue then store.handed? queue else none
  | _ => none

/-- What is done with a store. One of the tasks that are out is completed, for the tenant from whose
records it was taken, or any other operation is asked for. A record can also be entered by hand. -/
inductive StoreUse where
  | ask (operation : Operation)
  | complete (place : Nat)
  | enter (queue : String) (tenant : Tenant) (record : Bytes) (score : Double)

/-- What is done with one queue, where tasks are added under their own tenants. -/
inductive QueueUse where
  | add (task : Task) (time : Instant) (priority : Priority)
  | next
  | complete (place : Nat)

def QueueUse.storeUse (queue : String) : QueueUse → StoreUse
  | .add task time priority => .ask (.enqueueAt queue task.tenant task time priority)
  | .next => .ask (.next queue)
  | .complete place => .complete place

/-- A store with the tasks that were popped from a queue and are not completed, each with the tenant
from whose records it was taken. -/
structure TasksOut where
  store : MemoryStore
  out : List (Tenant × Task)

namespace TasksOut

def start : TasksOut := ⟨MemoryStore.empty, []⟩

def load (state : TasksOut) (tenant : Tenant) : Nat := (state.out.map Prod.fst).count tenant

def counted (queue : String) (state : TasksOut) (tenant : Tenant) : Int :=
  ((state.store.queue queue).inFlight tenant).getD 0

def step (engine : Engine) (queue : String) (state : TasksOut) : StoreUse → TasksOut
  | .ask operation =>
    ⟨engine.perform state.store operation,
      (operation.handed? queue state.store).toList ++ state.out⟩
  | .complete place =>
    match state.out[place]? with
    | none => state
    | some (tenant, _) =>
      ⟨engine.perform state.store (.complete queue tenant), state.out.eraseIdx place⟩
  | .enter name tenant record score =>
    { state with store := (state.store.perform (.push name tenant record score)).2 }

def after (engine : Engine) (queue : String) (uses : List StoreUse) : TasksOut :=
  uses.foldl (step engine queue) start

theorem after_append (engine : Engine) (queue : String) (first second : List StoreUse) :
    after engine queue (first ++ second) = second.foldl (step engine queue) (after engine queue first) :=
  List.foldl_append

section
variable (engine : Engine) (queue : String) (state : TasksOut)

theorem step_sound (use : StoreUse) (sound : state.store.Sound) :
    (state.step engine queue use).store.Sound := by
  cases use with
  | ask operation => exact Engine.perform_sound engine operation sound
  | complete place =>
    simp only [step]
    split
    · exact sound
    · exact Engine.perform_sound engine _ sound
  | enter name tenant record score => exact MemoryStore.perform_sound _ _ sound

theorem enqueueAt_leaves (tenant : Tenant) (task : Task) (time : Instant) (priority : Priority)
    (store : MemoryStore) :
    (engine.enqueueAt queue tenant task time priority).leaves store =
      match engine.check queue task with
      | .ok () => (store.perform (.push queue tenant task.encode (score time priority))).2
      | .error _ => store := by
  simp only [Program.leaves, Engine.enqueueAt, Bind.bind]
  cases engine.check queue task with
  | error failure => rfl
  | ok value => rfl

/-- A tenant that is registered again for a new record has the count that it had. -/
theorem counted_add (task : Task) (time : Instant) (priority : Priority) (tenant : Tenant) :
    (state.step engine queue (.ask (.enqueueAt queue task.tenant task time priority))).counted queue
      tenant = state.counted queue tenant := by
  simp only [step, counted, Engine.perform, enqueueAt_leaves]
  split
  · simp only [MemoryStore.queue_perform, Call.queue, if_true, QueueState.after,
      QueueState.inFlight_push]
    split
    · rename_i own
      rw [own, Option.getD_some]
    · rfl
  · rfl

def served : List Tenant := (state.store.handed? queue).toList.map Prod.fst

theorem count_served_le (tenant : Tenant) : (state.served queue).count tenant ≤ 1 := by
  rw [served]
  cases state.store.handed? queue with
  | none => exact Nat.zero_le 1
  | some pair => exact List.count_le_length

theorem counted_serves {before after : QueueState} {owner : Tenant} {record : Bytes}
    {count counted : Int} (serves : before.Serves after owner record count counted) (tenant : Tenant) :
    (after.inFlight tenant).getD 0 =
        (before.inFlight tenant).getD 0 + (if owner = tenant then counted - count else 0) ∨
      after.inFlight tenant = none ∧ tenant ≠ owner := by
  by_cases own : owner = tenant
  · subst own
    left
    rw [serves.counted, serves.registered, if_pos rfl, Option.getD_some, Option.getD_some]
    omega
  · rcases serves.inFlight_cases tenant (Ne.symm own) with same | gone
    · left
      rw [same, if_neg own, Int.add_zero]
    · exact Or.inr ⟨gone, Ne.symm own⟩

/-- A serving counts the task that it hands out, but a tenant without records may leave with its count. -/
theorem counted_next (tenant : Tenant) (sound : state.store.Sound) :
    (state.step engine queue (.ask (.next queue))).counted queue tenant =
        state.counted queue tenant + (state.served queue).count tenant ∨
      ((state.step engine queue (.ask (.next queue))).store.queue queue).inFlight tenant = none ∧
        tenant ∉ state.served queue := by
  change _ ∨ (((Engine.next queue).leaves state.store).queue queue).inFlight tenant = none ∧ _
  simp only [counted, served, step, Engine.perform]
  rcases state.store.next_hands queue sound with
    ⟨_, nothing, _, clears⟩ | ⟨owner, record, count, _, ended⟩
  · right
    rw [QueueState.inFlight, clears.registry, ScoredSet.score?_empty, nothing]
    exact ⟨rfl, List.not_mem_nil⟩
  · rcases ended with ⟨task, _, handed, serves⟩ | ⟨nothing, serves⟩
    · rw [handed, Option.toList_some, List.map_singleton, List.count_singleton]
      rcases counted_serves serves tenant with counts | ⟨gone, differ⟩
      · left
        rw [counts, add_sub_cancel_left]
        simp only [beq_iff_eq, Nat.cast_ite, Nat.cast_one, Nat.cast_zero]
      · exact Or.inr ⟨gone, fun listed => differ (List.mem_singleton.mp listed)⟩
    · rw [nothing, Option.toList_none, List.map_nil]
      rcases counted_serves serves tenant with counts | ⟨gone, _⟩
      · left
        rw [counts, Int.sub_self, ite_self]
        rfl
      · exact Or.inr ⟨gone, List.not_mem_nil⟩

theorem load_next (tenant : Tenant) :
    (state.step engine queue (.ask (.next queue))).load tenant =
      state.load tenant + (state.served queue).count tenant := by
  simp only [step, load, served, Operation.handed?, if_true, List.map_append, List.count_append]
  exact Nat.add_comm _ _

def completedAt (place : Nat) : List Tenant := state.out[place]?.toList.map Prod.fst

theorem count_completedAt_le (place : Nat) (tenant : Tenant) :
    (state.completedAt place).count tenant ≤ 1 := by
  rw [completedAt]
  cases state.out[place]? with
  | none => exact Nat.zero_le 1
  | some pair => exact List.count_le_length

theorem load_complete (place : Nat) (tenant : Tenant) :
    (state.step engine queue (.complete place)).load tenant +
      (state.completedAt place).count tenant = state.load tenant := by
  simp only [step, completedAt]
  cases found : state.out[place]? with
  | none => simp
  | some pair =>
    obtain ⟨inside, same⟩ := List.getElem?_eq_some_iff.mp found
    have fewer := ((List.getElem_cons_eraseIdx_perm inside).map Prod.fst).count_eq tenant
    rw [same, List.map_cons, List.count_cons] at fewer
    simpa only [load, Option.toList_some, List.map_singleton, List.count_singleton] using fewer

theorem counted_complete (place : Nat) (tenant : Tenant) (sound : state.store.Sound) :
    (state.step engine queue (.complete place)).counted queue tenant =
      max (state.counted queue tenant - (state.completedAt place).count tenant) 0 := by
  have positive : 0 ≤ state.counted queue tenant := (sound queue).getD_inFlight tenant
  simp only [step, completedAt]
  cases found : state.out[place]? with
  | none => simp [positive]
  | some pair =>
    have released : (engine.perform state.store (.complete queue pair.1)).queue queue =
        (state.store.queue queue).release pair.1 := by
      rw [Engine.perform, Program.leaves, Engine.complete, Program.run_perform]
      exact (MemoryStore.queue_perform state.store (.release queue pair.1) queue).trans (if_pos rfl)
    simp only [counted] at positive ⊢
    rw [released, QueueState.inFlight_release]
    split
    · rename_i own
      simp [own]
    · rename_i differ
      simp [differ, positive]

end

def moment : Instant := ⟨1700000000, 0⟩

def taskOf (tenant : Tenant) (letter : UInt8) : Task := ⟨"t", tenant, [letter], moment, 0⟩

end TasksOut
end TenantQueue
