import TenantQueue.Proofs.Engine.Operations
import TenantQueue.Proofs.Queue.Isolation

/-! The calls that operations of an engine make of a store in memory. The store after the operations
is what these calls make of it, so the events of the calls tell what enters a queue and what is taken
from it in the course of the operations. -/
namespace TenantQueue

namespace MemoryStore

theorem eventsFrom_append (store : MemoryStore) (first second : List Call) :
    store.eventsFrom (first ++ second) =
      store.eventsFrom first ++ (store.performAll first).eventsFrom second := by
  induction first generalizing store with
  | nil => rfl
  | cons call rest ih => rw [List.cons_append, eventsFrom, eventsFrom, ih, performAll, List.cons_append]

end MemoryStore

def Event.serving? (queue : String) : Event → Option (Tenant × Bytes)
  | ⟨.pop place, .ok (.popped tenant record)⟩ => if place = queue then some (tenant, record) else none
  | _ => none

def servings (queue : String) (events : List Event) : List (Tenant × Bytes) :=
  events.filterMap (Event.serving? queue)

theorem servings_append (queue : String) (first second : List Event) :
    servings queue (first ++ second) = servings queue first ++ servings queue second :=
  List.filterMap_append

namespace Program
variable {α : Type}

/-- The calls that a program makes. A serving pops once more than it finds tenants drained. -/
def calls : Program α → MemoryStore → List Call
  | call request next, store =>
    request :: (next (store.perform request).1).calls (store.perform request).2
  | serve queue next, store =>
    List.replicate ((popUntil MemoryStore.backend queue store).2.1.length + 1) (.pop queue) ++
      match popUntil MemoryStore.backend queue store with
      | (.ok reply, _, last) => (next (.ok reply)).calls last
      | (.failed failure, _, last) => (next (.error failure)).calls last
      | (.crashed _, _, _) => []
  | note _ rest, store => rest.calls store
  | _, _ => []

theorem popUntil_pops (queue : String) (store : MemoryStore) :
    (popUntil MemoryStore.backend queue store).2.2 = store.performAll
        (List.replicate ((popUntil MemoryStore.backend queue store).2.1.length + 1) (.pop queue)) ∧
      servings queue (store.eventsFrom
          (List.replicate ((popUntil MemoryStore.backend queue store).2.1.length + 1) (.pop queue))) =
        match (popUntil MemoryStore.backend queue store).1 with
        | .ok (some found) => [found]
        | _ => [] := by
  induction store using popInduction MemoryStore.backend queue with
  | step store ih =>
    have performed : MemoryStore.backend.perform (.pop queue) store =
        (Outcome.ofExcept (store.perform (.pop queue)).1, (store.perform (.pop queue)).2) := rfl
    rw [popUntil_eq]
    cases ended : (store.perform (.pop queue)).1 with
    | error failure =>
      rw [ended] at performed
      rw [performed]
      simp [Outcome.ofExcept, MemoryStore.performAll, MemoryStore.eventsFrom, ended, servings,
        Event.serving?]
    | ok reply =>
      rw [ended] at performed
      cases reply with
      | empty =>
        rw [performed]
        simp [Outcome.ofExcept, MemoryStore.performAll, MemoryStore.eventsFrom, ended, servings,
          Event.serving?]
      | popped tenant record =>
        rw [performed]
        simp [Outcome.ofExcept, MemoryStore.performAll, MemoryStore.eventsFrom, ended, servings,
          Event.serving?]
      | drained tenant =>
        obtain ⟨last, taken⟩ := ih tenant _ performed
        rw [performed]
        simp only [Outcome.ofExcept, List.length_cons]
        rw [List.replicate_succ, MemoryStore.performAll, MemoryStore.eventsFrom, servings,
          List.filterMap_cons_none]
        · exact ⟨last, taken⟩
        · rw [ended]
          rfl

theorem run_performAll (program : Program α) (store : MemoryStore) :
    (program.run MemoryStore.backend store).2.2 = store.performAll (program.calls store) := by
  induction program generalizing store with
  | done value => rfl
  | failed failure => rfl
  | crashed crash => rfl
  | call request next ih =>
    simp only [run, calls, MemoryStore.performAll, MemoryStore.backend]
    cases (store.perform request).1 with
    | ok reply => exact ih _ _
    | error failure => exact ih _ _
  | serve queue next ih =>
    have pops := (popUntil_pops queue store).1
    simp only [run, calls, MemoryStore.performAll_append, ← pops]
    generalize popUntil MemoryStore.backend queue store = served
    obtain ⟨outcome, drained, last⟩ := served
    cases outcome with
    | ok reply => exact ih _ _
    | failed failure => exact ih _ _
    | crashed crash => rfl
  | note notice rest ih => exact ih store

theorem leaves_eq (program : Program α) (store : MemoryStore) :
    program.leaves store = store.performAll (program.calls store) :=
  run_performAll program store

theorem Makes.calls_allowed {Allowed : Call → Prop} {program : Program α}
    (makes : program.Makes Allowed) (store : MemoryStore) :
    ∀ call ∈ program.calls store, Allowed call := by
  induction program generalizing store with
  | done value => exact fun _ member => absurd member List.not_mem_nil
  | failed failure => exact fun _ member => absurd member List.not_mem_nil
  | crashed crash => exact fun _ member => absurd member List.not_mem_nil
  | call request next ih =>
    intro call member
    obtain rfl | later := List.mem_cons.mp member
    · exact makes.1
    · exact ih _ (makes.2 _) _ call later
  | serve queue next ih =>
    intro call member
    rw [calls] at member
    obtain pop | later := List.mem_append.mp member
    · rw [List.eq_of_mem_replicate pop]
      exact makes.1
    · split at later
      · exact ih _ (makes.2 _) _ call later
      · exact ih _ (makes.2 _) _ call later
      · exact absurd later List.not_mem_nil
  | note notice rest ih => exact ih makes store

end Program

namespace Engine
open Program

def requests (engine : Engine) (store : MemoryStore) : Operation → List Call
  | .enqueue queue taskType tenant payload priority queuedOn time =>
    (engine.enqueue queue taskType tenant payload priority queuedOn time).calls store
  | .enqueueAt queue tenant task time priority =>
    (engine.enqueueAt queue tenant task time priority).calls store
  | .next queue => (next queue).calls store
  | .complete queue tenant => (complete queue tenant).calls store
  | .beginProcessing queue tenant task span now =>
    (beginProcessing queue tenant task span now).calls store
  | .endProcessing queue tenant fingerprint => (endProcessing queue tenant fingerprint).calls store
  | .requeueExpired queue now => (engine.requeueExpired queue now).calls store
  | .overwrite queue fingerprint record => [.setPayload queue fingerprint record]
  | .lose queue fingerprint => [.deletePayload queue fingerprint]

theorem perform_eq (engine : Engine) (store : MemoryStore) (operation : Operation) :
    engine.perform store operation = store.performAll (engine.requests store operation) := by
  cases operation <;> exact leaves_eq _ store

def course (engine : Engine) : MemoryStore → List Operation → List Call
  | _, [] => []
  | store, operation :: rest =>
    engine.requests store operation ++ engine.course (engine.perform store operation) rest

theorem foldl_perform (engine : Engine) (store : MemoryStore) (operations : List Operation) :
    operations.foldl engine.perform store = store.performAll (engine.course store operations) := by
  induction operations generalizing store with
  | nil => rfl
  | cons operation rest ih =>
    rw [List.foldl_cons, ih, course, MemoryStore.performAll_append, ← perform_eq]

def events (engine : Engine) (store : MemoryStore) (operations : List Operation) : List Event :=
  store.eventsFrom (engine.course store operations)

theorem events_cons (engine : Engine) (store : MemoryStore) (operation : Operation)
    (rest : List Operation) :
    engine.events store (operation :: rest) =
      store.eventsFrom (engine.requests store operation) ++
        engine.events (engine.perform store operation) rest := by
  rw [events, course, MemoryStore.eventsFrom_append, ← perform_eq, events]

end Engine
end TenantQueue
