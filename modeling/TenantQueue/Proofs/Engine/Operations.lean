import TenantQueue.Engine.Durable
import TenantQueue.Proofs.Engine.Next
import TenantQueue.Proofs.Queue.Deadlines

/-! What engines make of a store that was empty. Every such store is sound, and no processing entry in
it hides another. -/
namespace TenantQueue

open Program

/-- What is asked of an engine. A stored record may also be overwritten or lost. -/
inductive Operation where
  | enqueue (queue taskType : String) (tenant : Tenant) (payload : Bytes) (priority : Priority)
    (queuedOn time : Instant)
  | enqueueAt (queue : String) (tenant : Tenant) (task : Task) (time : Instant)
    (priority : Priority)
  | next (queue : String)
  | complete (queue : String) (tenant : Tenant)
  | beginProcessing (queue : String) (tenant : Tenant) (task : Task) (span : Duration)
    (now : Instant)
  | endProcessing (queue : String) (tenant : Tenant) (fingerprint : Fingerprint)
  | requeueExpired (queue : String) (now : Instant)
  | overwrite (queue : String) (fingerprint : Fingerprint) (record : Bytes)
  | lose (queue : String) (fingerprint : Fingerprint)

def Program.leaves {α : Type} (program : Program α) (store : MemoryStore) : MemoryStore :=
  (program.run MemoryStore.backend store).2.2

theorem Program.Ends.leaves {α : Type} {program : Program α} {store last : MemoryStore}
    {outcome : Outcome α} (ended : program.Ends MemoryStore.backend store outcome last) :
    program.leaves store = last := by
  obtain ⟨notices, ran⟩ := ended
  rw [Program.leaves, ran]

namespace Engine

def perform (engine : Engine) (store : MemoryStore) : Operation → MemoryStore
  | .enqueue queue taskType tenant payload priority queuedOn time =>
    (engine.enqueue queue taskType tenant payload priority queuedOn time).leaves store
  | .enqueueAt queue tenant task time priority =>
    (engine.enqueueAt queue tenant task time priority).leaves store
  | .next queue => (next queue).leaves store
  | .complete queue tenant => (complete queue tenant).leaves store
  | .beginProcessing queue tenant task span now =>
    (beginProcessing queue tenant task span now).leaves store
  | .endProcessing queue tenant fingerprint => (endProcessing queue tenant fingerprint).leaves store
  | .requeueExpired queue now => (engine.requeueExpired queue now).leaves store
  | .overwrite queue fingerprint record =>
    (Program.perform (.setPayload queue fingerprint record)).leaves store
  | .lose queue fingerprint => (Program.perform (.deletePayload queue fingerprint)).leaves store

def after (engine : Engine) (operations : List Operation) : MemoryStore :=
  operations.foldl engine.perform MemoryStore.empty

theorem after_append (engine : Engine) (first second : List Operation) :
    engine.after (first ++ second) = second.foldl engine.perform (engine.after first) :=
  List.foldl_append

theorem leaves_sound {α : Type} {store : MemoryStore} (program : Program α) (sound : store.Sound) :
    (program.leaves store).Sound :=
  run_keeps MemoryStore.backend MemoryStore.Sound
    (fun call store sound => MemoryStore.perform_sound store call sound) program store sound

theorem perform_sound {store : MemoryStore} (engine : Engine) (operation : Operation)
    (sound : store.Sound) : (engine.perform store operation).Sound := by
  cases operation <;> exact leaves_sound _ sound

section
variable {Allowed : Call → Prop}

theorem makes_enqueueAt (engine : Engine) (queue : String) (tenant : Tenant) (task : Task)
    (time : Instant) (priority : Priority)
    (allowed : ∀ record score, Allowed (.push queue tenant record score)) :
    (engine.enqueueAt queue tenant task time priority).Makes Allowed :=
  makes_bind _ _ (makes_ofExcept _) fun _ =>
    makes_bind _ _ (makes_perform _ (allowed _ _)) fun _ => trivial

theorem makes_complete (queue : String) (tenant : Tenant)
    (allowed : Allowed (.release queue tenant)) : (complete queue tenant).Makes Allowed :=
  makes_perform _ allowed

theorem makes_releaseSlot (queue : String) (tenant : Tenant)
    (allowed : Allowed (.release queue tenant)) : (releaseSlot queue tenant).Makes Allowed := by
  refine makes_bind _ _ (makes_attempt _ (makes_complete queue tenant allowed)) ?_
  intro result
  cases result <;> trivial

theorem makes_readPopped (queue : String) (tenant : Tenant) (record : Bytes)
    (allowed : Allowed (.release queue tenant)) :
    (readPopped queue tenant record).Makes Allowed := by
  unfold readPopped
  split
  · trivial
  · exact makes_bind _ _ (makes_releaseSlot queue tenant allowed) fun _ => trivial

theorem makes_next (queue : String) (pops : Allowed (.pop queue))
    (releases : ∀ tenant, Allowed (.release queue tenant)) : (next queue).Makes Allowed := by
  refine ⟨pops, ?_⟩
  intro reply
  cases reply with
  | error failure => trivial
  | ok found =>
    cases found with
    | none => trivial
    | some pair =>
      exact makes_bind _ _ (makes_readPopped queue pair.1 pair.2 (releases pair.1)) fun _ => trivial

theorem makes_beginProcessing (queue : String) (tenant : Tenant) (task : Task) (span : Duration)
    (now : Instant)
    (adds : Allowed (.addProcessing queue tenant task.fingerprint
      (now.epochSeconds.add span.seconds)))
    (removes : Allowed (.removeProcessing queue tenant task.fingerprint))
    (sets : Allowed (.setPayload queue task.fingerprint task.encode)) :
    (beginProcessing queue tenant task span now).Makes Allowed := by
  refine makes_bind _ _ (makes_perform _ adds) fun added => ?_
  refine makes_bind _ _ (makes_attempt _ (makes_perform _ sets)) fun result => ?_
  cases result with
  | ok _ => exact makes_bind _ _ trivial fun _ => trivial
  | error failure =>
    have rolls : (rollBack queue tenant task.fingerprint).Makes Allowed := by
      refine makes_bind _ _ (makes_attempt _ (makes_perform _ removes)) fun result => ?_
      cases result <;> trivial
    cases added with
    | true => exact makes_bind _ _ rolls fun _ => trivial
    | false => trivial

theorem makes_dropEntry (queue : String) (tenant : Tenant) (fingerprint : Fingerprint)
    (removes : Allowed (.removeProcessing queue tenant fingerprint))
    (deletes : Allowed (.deletePayload queue fingerprint)) :
    (dropEntry queue tenant fingerprint).Makes Allowed :=
  makes_bind _ _ (makes_perform _ removes) fun _ => makes_perform _ deletes

theorem makes_storedTask (queue : String) (tenant : Tenant) (fingerprint : Fingerprint)
    (reads : Allowed (.getPayload queue fingerprint)) :
    (storedTask queue tenant fingerprint).Makes Allowed := by
  refine makes_bind _ _ (makes_perform _ reads) fun record => ?_
  cases record with
  | none => exact makes_bind _ _ trivial fun _ => trivial
  | some record =>
    dsimp only
    split
    · trivial
    · exact makes_bind _ _ trivial fun _ => trivial

theorem makes_total {α : Type} (work : α → Program Nat) (members : List α)
    (each : ∀ member, (work member).Makes Allowed) : (total work members).Makes Allowed := by
  induction members with
  | nil => trivial
  | cons first rest ih =>
    exact makes_bind _ _ (each first) fun _ => makes_bind _ _ ih fun _ => trivial

theorem makes_requeueEntry (engine : Engine) (queue : String) (tenant : Tenant) (now : Instant)
    (fingerprint : Fingerprint) (reads : Allowed (.getPayload queue fingerprint))
    (pushes : ∀ record score, Allowed (.push queue tenant record score))
    (releases : Allowed (.release queue tenant))
    (removes : Allowed (.removeProcessing queue tenant fingerprint))
    (deletes : Allowed (.deletePayload queue fingerprint)) :
    (engine.requeueEntry queue tenant now fingerprint).Makes Allowed := by
  have stored := makes_storedTask queue tenant fingerprint reads
  have drops := makes_dropEntry queue tenant fingerprint removes deletes
  refine makes_bind _ _ stored fun task => ?_
  cases task with
  | none => exact makes_bind _ _ drops fun _ => trivial
  | some task =>
    have requeues : (engine.requeue queue tenant task now).Makes Allowed := by
      unfold requeue
      dsimp only
      split
      · trivial
      · exact makes_bind _ _ (makes_enqueueAt engine queue tenant _ _ _ pushes) fun _ =>
          makes_bind _ _ (makes_complete queue tenant releases) fun _ => trivial
    exact makes_bind _ _ requeues fun _ => makes_bind _ _ drops fun _ => trivial

theorem makes_requeueExpired (engine : Engine) (queue : String) (now : Instant)
    (lists : Allowed (.activeTenants queue))
    (expires : ∀ tenant, Allowed (.expiredProcessing queue tenant now.epochSeconds))
    (reads : ∀ fingerprint, Allowed (.getPayload queue fingerprint))
    (pushes : ∀ tenant record score, Allowed (.push queue tenant record score))
    (releases : ∀ tenant, Allowed (.release queue tenant))
    (removes : ∀ tenant fingerprint, Allowed (.removeProcessing queue tenant fingerprint))
    (deletes : ∀ fingerprint, Allowed (.deletePayload queue fingerprint)) :
    (engine.requeueExpired queue now).Makes Allowed := by
  refine makes_bind _ _ (makes_perform _ lists) fun registered => makes_total _ _ fun entry => ?_
  refine makes_bind _ _ (makes_perform _ (expires entry.1)) fun expired =>
    makes_total _ _ fun fingerprint => ?_
  exact makes_requeueEntry engine queue entry.1 now fingerprint (reads fingerprint)
    (pushes entry.1) (releases entry.1) (removes entry.1 fingerprint) (deletes fingerprint)

end

private theorem leaves_keeps {α : Type} (program : Program α) (store : MemoryStore)
    (makes : program.Makes Call.Timely) (kept : store.Sound ∧ store.Timely) :
    (program.leaves store).Sound ∧ (program.leaves store).Timely :=
  run_keeps_of_makes MemoryStore.backend (fun store => store.Sound ∧ store.Timely)
    (fun call store allowed kept => ⟨MemoryStore.perform_sound store call kept.1,
      MemoryStore.perform_timely store call kept.1 kept.2 allowed⟩) program store makes kept

theorem perform_keeps (engine : Engine) (store : MemoryStore) (operation : Operation)
    (kept : store.Sound ∧ store.Timely) :
    (engine.perform store operation).Sound ∧ (engine.perform store operation).Timely := by
  cases operation with
  | enqueue queue taskType tenant payload priority queuedOn time =>
    exact leaves_keeps _ store (makes_enqueueAt _ _ _ _ _ _ fun _ _ => trivial) kept
  | enqueueAt queue tenant task time priority =>
    exact leaves_keeps _ store (makes_enqueueAt _ _ _ _ _ _ fun _ _ => trivial) kept
  | next queue => exact leaves_keeps _ store (makes_next queue trivial fun _ => trivial) kept
  | complete queue tenant => exact leaves_keeps _ store (makes_complete queue tenant trivial) kept
  | beginProcessing queue tenant task span now =>
    exact leaves_keeps _ store
      (makes_beginProcessing queue tenant task span now (Double.add_timely _ _) trivial trivial) kept
  | endProcessing queue tenant fingerprint =>
    refine leaves_keeps _ store ?_ kept
    unfold endProcessing
    split
    · trivial
    · exact makes_dropEntry queue tenant fingerprint trivial trivial
  | requeueExpired queue now =>
    exact leaves_keeps _ store (makes_requeueExpired engine queue now trivial (fun _ => trivial)
      (fun _ => trivial) (fun _ _ _ => trivial) (fun _ => trivial) (fun _ _ => trivial)
      fun _ => trivial) kept
  | overwrite queue fingerprint record =>
    exact leaves_keeps _ store (makes_perform _ trivial) kept
  | lose queue fingerprint => exact leaves_keeps _ store (makes_perform _ trivial) kept

theorem after_keeps (engine : Engine) (operations : List Operation) :
    (engine.after operations).Sound ∧ (engine.after operations).Timely := by
  have run (store : MemoryStore) (kept : store.Sound ∧ store.Timely) :
      (operations.foldl engine.perform store).Sound ∧
        (operations.foldl engine.perform store).Timely := by
    induction operations generalizing store with
    | nil => exact kept
    | cons operation rest ih => exact ih _ (perform_keeps engine store operation kept)
  exact run _ ⟨fun _ => QueueState.empty_sound, fun _ => QueueState.empty_timely⟩

end Engine
end TenantQueue
