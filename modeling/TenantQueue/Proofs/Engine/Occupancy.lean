import TenantQueue.Proofs.Engine.Ownership
import TenantQueue.Proofs.Engine.TasksOut

/-! The registry never counts too many. A sweep gives back a slot that its holder gives back once more,
and a tenant that left the registry comes back with none: counts fall short of the tasks that are out, but
never go beyond them. -/
namespace TenantQueue

def Call.Spares : Call → Prop
  | pop _ => False
  | _ => True

namespace QueueState

theorem count_after_le (state : QueueState) (call : Call) (tenant : Tenant) (sound : state.Sound)
    (spares : call.Spares) :
    ((state.after call).inFlight tenant).getD 0 ≤ (state.inFlight tenant).getD 0 := by
  have positive := sound.getD_inFlight tenant
  cases call with
  | push queue owner record score =>
    change ((state.push owner record score).inFlight tenant).getD 0 ≤ _
    rw [inFlight_push]
    split
    · rename_i same
      rw [same, Option.getD_some]
    · exact Int.le_refl _
  | release queue owner =>
    change ((state.release owner).inFlight tenant).getD 0 ≤ _
    rw [inFlight_release]
    split
    · rename_i same
      rw [same, Option.getD_some]
      omega
    · exact Int.le_refl _
  | pop queue => exact spares.elim
  | _ => exact Int.le_refl _

end QueueState

namespace TasksOut
open Program

structure Bounded (queue : String) (state : TasksOut) : Prop where
  sound : state.store.Sound
  bound : ∀ tenant, state.counted queue tenant ≤ state.load tenant

theorem start_bounded (queue : String) : start.Bounded queue where
  sound _ := QueueState.empty_sound
  bound _ := Int.le_refl 0

variable {state : TasksOut}

theorem counted_perform_le (store : MemoryStore) (call : Call) (queue : String) (tenant : Tenant)
    (sound : store.Sound) (spares : call.Spares) :
    (((store.perform call).2.queue queue).inFlight tenant).getD 0 ≤
      ((store.queue queue).inFlight tenant).getD 0 := by
  rw [MemoryStore.queue_perform]
  split
  · rename_i here
    rw [here]
    exact QueueState.count_after_le _ call tenant (sound queue) spares
  · exact Int.le_refl _

theorem counted_leaves_le {α : Type} (program : Program α) (store : MemoryStore) (queue : String)
    (tenant : Tenant) (sound : store.Sound) (makes : program.Makes Call.Spares) :
    (((program.leaves store).queue queue).inFlight tenant).getD 0 ≤
      ((store.queue queue).inFlight tenant).getD 0 := by
  have kept := run_keeps_of_makes MemoryStore.backend
    (fun later => later.Sound ∧ ((later.queue queue).inFlight tenant).getD 0 ≤
      ((store.queue queue).inFlight tenant).getD 0)
    (fun call later spares kept => ⟨MemoryStore.perform_sound later call kept.1,
      Int.le_trans (counted_perform_le later call queue tenant kept.1 spares) kept.2⟩)
    program store makes ⟨sound, Int.le_refl _⟩
  exact kept.2

theorem counted_operation_le (engine : Engine) (store : MemoryStore) (operation : Operation)
    (queue : String) (tenant : Tenant) (sound : store.Sound)
    (other : operation ≠ .next queue) :
    (((engine.perform store operation).queue queue).inFlight tenant).getD 0 ≤
      ((store.queue queue).inFlight tenant).getD 0 := by
  cases operation with
  | enqueue name taskType owner payload priority queuedOn time =>
    exact counted_leaves_le _ store queue tenant sound
      (Engine.makes_enqueueAt _ _ _ _ _ _ fun _ _ => trivial)
  | enqueueAt name owner task time priority =>
    exact counted_leaves_le _ store queue tenant sound
      (Engine.makes_enqueueAt _ _ _ _ _ _ fun _ _ => trivial)
  | next name =>
    have elsewhere : queue ≠ name := by
      rintro rfl
      exact other rfl
    obtain ⟨_, _, last, _, ran, _, _, _, frame, _⟩ := Engine.next_selects store name sound
    rw [Engine.perform, Program.leaves, ran, frame queue elsewhere]
  | complete name owner =>
    exact counted_leaves_le _ store queue tenant sound (Engine.makes_complete name owner trivial)
  | beginProcessing name owner task span now =>
    exact counted_leaves_le _ store queue tenant sound
      (Engine.makes_beginProcessing name owner task span now trivial trivial trivial)
  | endProcessing name owner fingerprint =>
    refine counted_leaves_le _ store queue tenant sound ?_
    unfold Engine.endProcessing
    split
    · trivial
    · exact Engine.makes_dropEntry name owner fingerprint trivial trivial
  | requeueExpired name now =>
    exact counted_leaves_le _ store queue tenant sound
      (Engine.makes_requeueExpired engine name now trivial (fun _ => trivial) (fun _ => trivial)
        (fun _ _ _ => trivial) (fun _ => trivial) (fun _ _ => trivial) fun _ => trivial)
  | overwrite name fingerprint record =>
    exact counted_leaves_le _ store queue tenant sound
      (makes_perform (.setPayload name fingerprint record) trivial)
  | lose name fingerprint =>
    exact counted_leaves_le _ store queue tenant sound
      (makes_perform (.deletePayload name fingerprint) trivial)

theorem ask_bounded (engine : Engine) (queue : String) (operation : Operation)
    (bounded : state.Bounded queue) : (state.step engine queue (.ask operation)).Bounded queue where
  sound := state.step_sound engine queue (.ask operation) bounded.sound
  bound tenant := by
    have before := bounded.bound tenant
    by_cases serving : operation = .next queue
    · subst serving
      rw [load_next, Nat.cast_add]
      rcases state.counted_next engine queue tenant bounded.sound with counts | ⟨gone, _⟩
      · rw [counts]
        exact Int.add_le_add_right before _
      · rw [counted, gone, Option.getD_none]
        omega
    · have fewer : (state.step engine queue (.ask operation)).counted queue tenant ≤
          state.counted queue tenant :=
        counted_operation_le engine state.store operation queue tenant bounded.sound serving
      have more : state.load tenant ≤ (state.step engine queue (.ask operation)).load tenant := by
        simp only [step, load, List.map_append, List.count_append]
        exact Nat.le_add_left _ _
      omega

theorem complete_bounded (engine : Engine) (queue : String) (place : Nat)
    (bounded : state.Bounded queue) : (state.step engine queue (.complete place)).Bounded queue where
  sound := state.step_sound engine queue (.complete place) bounded.sound
  bound tenant := by
    have before := bounded.bound tenant
    have load := state.load_complete engine queue place tenant
    rw [state.counted_complete engine queue place tenant bounded.sound]
    omega

theorem enter_bounded (engine : Engine) (queue name : String) (tenant : Tenant) (record : Bytes)
    (score : Double) (bounded : state.Bounded queue) :
    (state.step engine queue (.enter name tenant record score)).Bounded queue where
  sound := MemoryStore.perform_sound _ _ bounded.sound
  bound other := Int.le_trans
    (counted_perform_le state.store (.push name tenant record score) queue other bounded.sound trivial)
    (bounded.bound other)

theorem step_bounded (engine : Engine) (queue : String) (use : StoreUse)
    (bounded : state.Bounded queue) : (state.step engine queue use).Bounded queue := by
  cases use with
  | ask operation => exact ask_bounded engine queue operation bounded
  | complete place => exact complete_bounded engine queue place bounded
  | enter name tenant record score =>
    exact enter_bounded engine queue name tenant record score bounded

theorem after_bounded (engine : Engine) (queue : String) (uses : List StoreUse) :
    (after engine queue uses).Bounded queue := by
  induction uses using List.reverseRecOn with
  | nil => exact start_bounded queue
  | append_singleton before use ih =>
    rw [after_append]
    exact step_bounded engine queue use ih

end TasksOut

/-- Tasks are added and records entered under their own tenants, and work is begun and ended so. -/
def StoreUse.Own (tasks : List Task) : StoreUse → Prop
  | .ask operation => operation.Own tasks ∧ operation.AddsOwn
  | .complete _ => True
  | .enter _ tenant record _ => ∀ task, Task.decode record = .ok task → task.tenant = tenant

namespace TasksOut
variable {state : TasksOut} {tasks : List Task}

theorem handed?_own (queue : String) (store : MemoryStore) (operation : Operation) (tenant : Tenant)
    (task : Task) (sound : store.Sound) (owned : (store.queue queue).Owned)
    (handed : operation.handed? queue store = some (tenant, task)) : task.tenant = tenant := by
  cases operation with
  | next name =>
    rw [Operation.handed?] at handed
    split at handed
    · rcases store.next_hands queue sound with ⟨_, nothing, _⟩ | ⟨owner, record, count, _, ended⟩
      · simp [nothing] at handed
      · rcases ended with ⟨read, decoded, hands, serves⟩ | ⟨nothing, _⟩
        · rw [hands, Option.some.injEq, Prod.mk.injEq] at handed
          obtain ⟨rfl, rfl⟩ := handed
          obtain ⟨score, first⟩ := serves.first
          exact owned owner record read (Option.isSome_of_eq_some first.1) decoded
        · simp [nothing] at handed
    · contradiction
  | _ => contradiction

/-- Where every record is at all times one of the tenant's own tasks, so is every task taken from it. -/
theorem out_own (engine : Engine) (queue : String) (uses : List StoreUse)
    (owned : ∀ before rest, uses = before ++ rest →
      ((after engine queue before).store.queue queue).Owned)
    (tenant : Tenant) (task : Task) (listed : (tenant, task) ∈ (after engine queue uses).out) :
    task.tenant = tenant := by
  induction uses using List.reverseRecOn with
  | nil => contradiction
  | append_singleton before use ih =>
    have earlier := ih fun first rest split =>
      owned first (rest ++ [use]) (by rw [split, List.append_assoc])
    rw [after_append] at listed
    cases use with
    | ask operation =>
      rcases List.mem_append.mp listed with handed | out
      · exact handed?_own queue _ operation tenant task (after_bounded engine queue before).sound
          (owned before [.ask operation] rfl) (Option.mem_toList.mp handed)
      · exact earlier out
    | complete place =>
      simp only [List.foldl_cons, List.foldl_nil, step] at listed
      split at listed
      · exact earlier listed
      · exact earlier (List.mem_of_mem_eraseIdx listed)
    | enter name owner record score => exact earlier listed

theorem step_proper (engine : Engine) (queue : String) (use : StoreUse)
    (recordable : ∀ task ∈ tasks, task.Recordable) (toldApart : Task.ToldApart tasks)
    (own : use.Own tasks) (proper : state.store.Proper tasks) :
    (state.step engine queue use).store.Proper tasks := by
  cases use with
  | ask operation => exact Engine.perform_proper engine operation recordable toldApart own.1 own.2 proper
  | complete place =>
    simp only [step]
    split
    · exact proper
    · exact Engine.perform_proper engine (.complete queue _) recordable toldApart trivial trivial proper
  | enter name tenant record score => exact proper.push name tenant record score own

theorem after_proper (engine : Engine) (queue : String) (uses : List StoreUse)
    (recordable : ∀ task ∈ tasks, task.Recordable) (toldApart : Task.ToldApart tasks)
    (own : ∀ use ∈ uses, use.Own tasks) :
    (after engine queue uses).store.Proper tasks := by
  induction uses using List.reverseRecOn with
  | nil => exact MemoryStore.empty_proper tasks
  | append_singleton before use ih =>
    rw [after_append]
    refine step_proper engine queue use recordable toldApart (own use (by simp)) (ih ?_)
    exact fun earlier member => own earlier (List.mem_append_left _ member)

/-- A tenant's count is never negative, and never more than the tasks that were taken from its records
and are not completed. If tasks are only added under their own tenants, by a sweep as well, these are the
tenant's own tasks, and each is completed for the tenant that it names. A sweep does so if work is begun
for tasks under their own tenants and fingerprints tell these tasks apart. -/
theorem counted_le_load (engine : Engine) (queue : String) (uses : List StoreUse) :
    (∀ tenant, 0 ≤ (after engine queue uses).counted queue tenant ∧
      (after engine queue uses).counted queue tenant ≤
        (after engine queue uses).load tenant) ∧
    ((∀ before rest, uses = before ++ rest →
        ((after engine queue before).store.queue queue).Owned) →
      ∀ tenant task, (tenant, task) ∈ (after engine queue uses).out → task.tenant = tenant) ∧
    ∀ tasks, (∀ task ∈ tasks, task.Recordable) → Task.ToldApart tasks →
      (∀ use ∈ uses, use.Own tasks) →
      ∀ before rest, uses = before ++ rest →
        ((after engine queue before).store.queue queue).Owned := by
  have bounded := after_bounded engine queue uses
  refine ⟨fun tenant => ⟨(bounded.sound queue).getD_inFlight tenant, bounded.bound tenant⟩,
    out_own engine queue uses, ?_⟩
  intro tasks recordable toldApart own before rest split
  have earlier : ∀ use ∈ before, use.Own tasks := fun use member =>
    own use (split ▸ List.mem_append_left _ member)
  exact (after_proper engine queue before recordable toldApart earlier).owned queue

/-- A task is lost and swept, both its deliveries are completed, and an unreadable record is popped. -/
theorem counted_le_load_swept :
    let uses : List StoreUse := [.ask (.enqueueAt "q" ⟨1⟩ Engine.typed Engine.noon .normal),
      .ask (.next "q"), .ask (.beginProcessing "q" ⟨1⟩ Engine.typed ⟨0⟩ Engine.noon),
      .ask (.requeueExpired "q" Engine.noon), .ask (.next "q"), .complete 0, .complete 0,
      .enter "q" ⟨1⟩ [0xc1] 0, .ask (.next "q")]
    (∀ use ∈ uses, use.Own [Engine.typed]) ∧
      ((after Engine.standard "q" uses).counted "q" ⟨1⟩ ≤
        (after Engine.standard "q" uses).load ⟨1⟩) ∧
      ∀ tenant task, (tenant, task) ∈ (after Engine.standard "q" uses).out →
        task.tenant = tenant := by
  intro uses
  have recordable : Engine.typed.Recordable := ⟨by decide, by decide, by decide⟩
  have unreadable : Task.decode [0xc1] = .error (.serialization .packed) := by decide +kernel
  have own : ∀ use ∈ uses, use.Own [Engine.typed] := by
    simp only [uses, List.forall_mem_cons, StoreUse.Own, Operation.Own, Operation.AddsOwn,
      unreadable, and_true, true_and]
    refine ⟨⟨recordable, rfl⟩, ⟨List.mem_singleton_self _, rfl⟩, ?_, List.forall_mem_nil _⟩
    intro task read
    contradiction
  have toldApart : Task.ToldApart [Engine.typed] := by
    intro first firstListed second secondListed _
    rw [List.mem_singleton.mp firstListed, List.mem_singleton.mp secondListed]
    exact ⟨rfl, rfl, rfl⟩
  obtain ⟨bounds, ownOut, ownAlways⟩ := counted_le_load Engine.standard "q" uses
  refine ⟨own, (bounds ⟨1⟩).2, ownOut (ownAlways [Engine.typed] ?_ toldApart own)⟩
  intro task listed
  exact List.mem_singleton.mp listed ▸ recordable

end TasksOut
end TenantQueue
