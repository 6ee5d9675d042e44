import TenantQueue.Proofs.Engine.Clearance
import TenantQueue.Proofs.Queue.Kept
import TenantQueue.Proofs.Task.Record

/-! Processing entries and the records kept for them. As long as work begins and ends for a task under
its own tenant, and fingerprints tell tasks apart, a record is kept under a fingerprint exactly if one
tenant has an entry for it, the tenant of the task in the record. -/
namespace TenantQueue

/-- Tasks that have one fingerprint agree in type, tenant and payload. -/
def Task.ToldApart (tasks : List Task) : Prop :=
  ∀ first ∈ tasks, ∀ second ∈ tasks, first.fingerprint = second.fingerprint →
    first.taskType = second.taskType ∧ first.tenant = second.tenant ∧
      first.payload = second.payload

namespace QueueState

/-- Under a fingerprint there is nothing, or the record of one of the tasks and an entry for its tenant
alone. -/
def Paired (tasks : List Task) (state : QueueState) : Prop :=
  ∀ fingerprint,
    (state.payloads.get? fingerprint = none ∧
        ∀ tenant, (state.processingOf tenant).score? fingerprint = none) ∨
      ∃ task ∈ tasks, task.fingerprint = fingerprint ∧
        state.payloads.get? fingerprint = some task.encode ∧
        ∀ tenant, ((state.processingOf tenant).score? fingerprint).isSome ↔ tenant = task.tenant

variable {tasks : List Task} {state next : QueueState}

theorem empty_paired (tasks : List Task) : empty.Paired tasks :=
  fun _ => Or.inl ⟨rfl, fun _ => rfl⟩

theorem Paired.of_same (paired : state.Paired tasks) (entries : next.processing = state.processing)
    (records : next.payloads = state.payloads) : next.Paired tasks := by
  intro fingerprint
  have here := paired fingerprint
  simp only [processingOf, entries, records] at here ⊢
  exact here

/-- An entry belongs to the tenant of each task that has its fingerprint. -/
theorem Paired.tenant_eq (paired : state.Paired tasks) (toldApart : Task.ToldApart tasks) (task : Task)
    (listed : task ∈ tasks) (tenant : Tenant)
    (present : ((state.processingOf tenant).score? task.fingerprint).isSome) :
    tenant = task.tenant := by
  rcases paired task.fingerprint with ⟨_, absent⟩ | ⟨other, otherListed, same, _, owners⟩
  · rw [absent tenant] at present
    contradiction
  · rw [(owners tenant).mp present]
    exact (toldApart other otherListed task listed same).2.1

theorem Paired.beginEntry (paired : state.Paired tasks) (toldApart : Task.ToldApart tasks)
    (task : Task) (listed : task ∈ tasks) (deadline : Double) :
    (state.beginEntry task.tenant task deadline).Paired tasks := by
  intro fingerprint
  simp only [score?_beginEntry]
  by_cases own : task.fingerprint = fingerprint
  · subst own
    refine Or.inr ⟨task, listed, rfl, ?_, fun tenant => ?_⟩
    · rw [QueueState.beginEntry, Table.get?_set, if_pos rfl]
    · constructor
      · intro present
        split at present
        · rename_i same
          exact same.1.symm
        · exact paired.tenant_eq toldApart task listed tenant present
      · rintro rfl
        rw [if_pos ⟨rfl, rfl⟩]
        rfl
  · have record : (state.beginEntry task.tenant task deadline).payloads.get? fingerprint =
        state.payloads.get? fingerprint := by
      rw [QueueState.beginEntry, Table.get?_set, if_neg own]
    simp only [record, own, and_false, if_false]
    exact paired fingerprint

/-- Where an entry is dropped for its own tenant nothing is left under its fingerprint. -/
theorem Paired.dropEntry (paired : state.Paired tasks) (toldApart : Task.ToldApart tasks)
    (sound : state.Sound) (task : Task) (listed : task ∈ tasks) :
    (state.dropEntry task.tenant task.fingerprint).Paired tasks := by
  have entries (tenant : Tenant) : (state.dropEntry task.tenant task.fingerprint).processingOf tenant =
      if task.tenant = tenant then (state.processingOf task.tenant).erase task.fingerprint
      else state.processingOf tenant :=
    processingOf_removeProcessing state task.tenant tenant task.fingerprint sound
  have records (fingerprint : Fingerprint) :
      (state.dropEntry task.tenant task.fingerprint).payloads.get? fingerprint =
        if task.fingerprint = fingerprint then none else state.payloads.get? fingerprint :=
    Table.get?_erase state.payloads task.fingerprint fingerprint
  intro fingerprint
  rw [records]
  by_cases own : task.fingerprint = fingerprint
  · subst own
    refine Or.inl ⟨if_pos rfl, fun tenant => ?_⟩
    rw [entries]
    split
    · rw [ScoredSet.score?_erase, if_pos rfl]
    · rename_i differ
      rw [← Option.not_isSome_iff_eq_none]
      exact fun present => differ (paired.tenant_eq toldApart task listed tenant present).symm
  · have unmoved (tenant : Tenant) :
        ((state.dropEntry task.tenant task.fingerprint).processingOf tenant).score? fingerprint =
          (state.processingOf tenant).score? fingerprint := by
      rw [entries]
      split
      · rename_i same
        rw [ScoredSet.score?_erase, if_neg own, same]
      · rfl
    simp only [unmoved, own, if_false]
    exact paired fingerprint

variable {engine : Engine} {queue : String} {now : Instant}
  {entries : List (Tenant × Fingerprint)} {last : QueueState} {count : Nat}

theorem Delivers.paired (delivers : Delivers engine queue now entries state count last)
    (sound : state.Sound) (paired : state.Paired tasks)
    (present : ∀ tenant fingerprint, (tenant, fingerprint) ∈ entries →
      ((state.processingOf tenant).score? fingerprint).isSome) : last.Paired tasks := by
  intro fingerprint
  simp only [delivers.payloads, delivers.processing sound]
  by_cases taken : fingerprint ∈ entries.map Prod.snd
  · refine Or.inl ⟨if_pos taken, fun tenant => ?_⟩
    obtain ⟨⟨owner, _⟩, listed, rfl⟩ := List.mem_map.mp taken
    have here := present owner _ listed
    rcases paired _ with ⟨_, absent⟩ | ⟨task, _, _, _, owners⟩
    · rw [absent owner] at here
      contradiction
    · split
      · rfl
      · rename_i spared
        rw [← Option.not_isSome_iff_eq_none]
        intro also
        have same : tenant = owner := ((owners _).mp also).trans ((owners _).mp here).symm
        exact spared (same ▸ listed)
  · have spared (tenant : Tenant) : (tenant, fingerprint) ∉ entries :=
      fun listed => taken (List.mem_map_of_mem listed)
    simp only [taken, spared, if_false]
    exact paired fingerprint

theorem Sweeps.paired {outcome : Outcome Nat}
    (sweeps : Sweeps engine queue now entries state outcome last) (sound : state.Sound)
    (paired : state.Paired tasks)
    (present : ∀ tenant fingerprint, (tenant, fingerprint) ∈ entries →
      ((state.processingOf tenant).score? fingerprint).isSome) : last.Paired tasks := by
  rcases sweeps with ⟨count, _, delivers⟩ | ⟨before, _, _, rest, count, split, delivers, _, _⟩
  · exact delivers.paired sound paired present
  · refine delivers.paired sound paired fun tenant fingerprint listed => ?_
    exact present tenant fingerprint (split ▸ List.mem_append_left _ listed)

end QueueState

/-- Work begins and ends for one of the tasks, under its own tenant. Nothing is done to a record behind
the engine's back. -/
def Operation.Own (tasks : List Task) : Operation → Prop
  | .beginProcessing _ tenant task _ _ => task ∈ tasks ∧ tenant = task.tenant
  | .endProcessing _ tenant fingerprint => fingerprint.isEmpty = true ∨
      ∃ task ∈ tasks, tenant = task.tenant ∧ fingerprint = task.fingerprint
  | .overwrite _ _ _ => False
  | .lose _ _ => False
  | _ => True

namespace Engine
open Program
variable {tasks : List Task} {store : MemoryStore}

private theorem leaves_paired {α : Type} (program : Program α) (makes : program.Makes Call.Passes)
    (sound : store.Sound) (queue : String) (paired : (store.queue queue).Paired tasks) :
    ((program.leaves store).queue queue).Paired tasks := by
  refine (run_keeps_of_makes MemoryStore.backend
    (fun store => store.Sound ∧ (store.queue queue).Paired tasks) ?_ program store makes
    ⟨sound, paired⟩).2
  intro call store passes kept
  refine ⟨MemoryStore.perform_sound store call kept.1, ?_⟩
  change ((store.perform call).2.queue queue).Paired tasks
  rw [MemoryStore.queue_perform]
  split
  · rename_i own
    subst own
    obtain ⟨entries, records⟩ := QueueState.after_passes _ call (kept.1 _) passes
    exact kept.2.of_same entries records
  · exact kept.2

private theorem becomes_paired {last : MemoryStore} {name queue : String} {state : QueueState}
    (becomes : store.Becomes last name state) (paired : (store.queue queue).Paired tasks)
    (own : (store.queue name).Paired tasks → state.Paired tasks) :
    (last.queue queue).Paired tasks := by
  rw [becomes queue]
  split
  · rename_i same
    exact own (same ▸ paired)
  · exact paired

theorem perform_paired (engine : Engine) (operation : Operation) (queue : String)
    (toldApart : Task.ToldApart tasks) (own : operation.Own tasks) (sound : store.Sound)
    (paired : (store.queue queue).Paired tasks) :
    ((engine.perform store operation).queue queue).Paired tasks := by
  cases operation with
  | enqueue name taskType tenant payload priority queuedOn time =>
    exact leaves_paired _ (makes_enqueueAt _ _ _ _ _ _ fun _ _ => trivial) sound queue paired
  | enqueueAt name tenant task time priority =>
    exact leaves_paired _ (makes_enqueueAt _ _ _ _ _ _ fun _ _ => trivial) sound queue paired
  | next name =>
    exact leaves_paired _ (makes_next name trivial fun _ => trivial) sound queue paired
  | complete name tenant =>
    exact leaves_paired _ (makes_complete name tenant trivial) sound queue paired
  | beginProcessing name tenant task span now =>
    obtain ⟨listed, rfl⟩ := own
    obtain ⟨last, ended, becomes⟩ := ends_beginProcessing store name task.tenant task span now
    rw [perform, ended.leaves]
    exact becomes_paired becomes paired fun paired => paired.beginEntry toldApart task listed _
  | endProcessing name tenant fingerprint =>
    rw [perform, endProcessing]
    split
    · exact paired
    · rename_i named
      obtain ⟨task, listed, rfl, rfl⟩ := own.resolve_left named
      obtain ⟨last, ended, becomes⟩ := ends_dropEntry store name task.tenant task.fingerprint
      rw [ended.leaves]
      exact becomes_paired becomes paired fun paired =>
        paired.dropEntry toldApart (sound name) task listed
  | requeueExpired name now =>
    obtain ⟨registered, outcome, last, state, ended, _, listed, becomes, sweeps⟩ :=
      ends_requeueExpired engine store name now sound
    rw [perform, ended.leaves]
    refine becomes_paired becomes paired fun paired => sweeps.paired (sound name) paired ?_
    intro tenant fingerprint member
    obtain ⟨_, deadline, found, _⟩ := QueueState.expired_of_mem_expiredOf _ _ registered tenant
      fingerprint (sound name) listed member
    exact Option.isSome_of_eq_some found
  | overwrite name fingerprint record => exact own.elim
  | lose name fingerprint => exact own.elim

theorem after_paired (engine : Engine) (operations : List Operation) (queue : String)
    (toldApart : Task.ToldApart tasks) (own : ∀ operation ∈ operations, operation.Own tasks) :
    ((engine.after operations).queue queue).Paired tasks := by
  induction operations using List.reverseRecOn with
  | nil => exact QueueState.empty_paired tasks
  | append_singleton before operation ih =>
    rw [after_append]
    refine perform_paired engine operation queue toldApart (own operation (by simp))
      (after_keeps engine before).1 ?_
    exact ih fun earlier member => own earlier (List.mem_append_left _ member)

/-- In every state that a run reaches a record is kept under a fingerprint exactly if one tenant alone
has an entry for it. The record is then that of a task with this fingerprint and this tenant, and where there
is no record nobody has an entry. -/
theorem entries_paired (engine : Engine) (tasks : List Task) (operations : List Operation)
    (queue : String) (fingerprint : Fingerprint) (recordable : ∀ task ∈ tasks, task.Recordable)
    (toldApart : Task.ToldApart tasks) (own : ∀ operation ∈ operations, operation.Own tasks) :
    let state := (engine.after operations).queue queue
    ((state.payloads.get? fingerprint).isSome ↔
        ∃ tenant, ∀ other,
          ((state.processingOf other).score? fingerprint).isSome ↔ other = tenant) ∧
      (∀ record, state.payloads.get? fingerprint = some record →
        ∃ task, Task.decode record = .ok task ∧ task.fingerprint = fingerprint ∧
          ∀ tenant, ((state.processingOf tenant).score? fingerprint).isSome ↔ tenant = task.tenant) ∧
      (state.payloads.get? fingerprint = none →
        ∀ tenant, (state.processingOf tenant).score? fingerprint = none) := by
  intro state
  rcases after_paired engine operations queue toldApart own fingerprint with
    ⟨missing, absent⟩ | ⟨task, listed, same, kept, owners⟩
  · refine ⟨?_, ?_, fun _ => absent⟩
    · refine iff_of_false (by simp [state, missing]) ?_
      rintro ⟨tenant, alone⟩
      have present := (alone tenant).mpr rfl
      rw [absent tenant] at present
      contradiction
    · intro record present
      rw [missing] at present
      contradiction
  · refine ⟨iff_of_true (by simp [state, kept]) ⟨task.tenant, owners⟩, ?_, ?_⟩
    · intro record present
      obtain rfl := Option.some.inj (kept.symm.trans present)
      have decoded := Task.decode_encode task [] (recordable task listed)
      rw [List.append_nil] at decoded
      exact ⟨task, decoded, same, owners⟩
    · intro missing
      rw [kept] at missing
      contradiction

def elsewhere : Task := { typed with tenant := ⟨2⟩ }

/-- A task is begun, lost, swept and begun again, while the same work is done for another tenant. Of the
first task a record is kept, with one error, and its tenant alone has an entry. -/
theorem entries_paired_redelivered :
    let tasks := [typed, typed.failedAgain, elsewhere]
    let operations : List Operation := [.enqueueAt "q" ⟨1⟩ typed noon .normal, .next "q",
      .beginProcessing "q" ⟨1⟩ typed ⟨0⟩ noon, .beginProcessing "q" ⟨2⟩ elsewhere ⟨0⟩ noon,
      .requeueExpired "q" noon, .next "q", .beginProcessing "q" ⟨1⟩ typed.failedAgain ⟨0⟩ noon,
      .endProcessing "q" ⟨2⟩ elsewhere.fingerprint, .complete "q" ⟨2⟩]
    let state := (standard.after operations).queue "q"
    (∀ task ∈ tasks, task.Recordable) ∧ Task.ToldApart tasks ∧
      (∀ operation ∈ operations, operation.Own tasks) ∧
      ((state.payloads.get? typed.fingerprint).isSome ↔
        ∃ tenant, ∀ other,
          ((state.processingOf other).score? typed.fingerprint).isSome ↔ other = tenant) ∧
      state.payloads.get? typed.fingerprint = some typed.failedAgain.encode ∧
      ∀ tenant, ((state.processingOf tenant).score? typed.fingerprint).isSome ↔ tenant = ⟨1⟩ := by
  intro tasks operations state
  have recordable : ∀ task ∈ tasks, task.Recordable := by
    simp only [tasks, List.forall_mem_cons]
    exact ⟨⟨by decide, by decide, by decide⟩, ⟨by decide, by decide, by decide⟩,
      ⟨by decide, by decide, by decide⟩, List.forall_mem_nil _⟩
  have differ : typed.fingerprint ≠ elsewhere.fingerprint := by decide +kernel
  have toldApart : Task.ToldApart tasks := by
    intro first firstListed second secondListed same
    simp only [tasks, List.mem_cons, List.not_mem_nil, or_false] at firstListed secondListed
    rcases firstListed with rfl | rfl | rfl <;> rcases secondListed with rfl | rfl | rfl
    case inl.inr.inr => exact absurd same differ
    case inr.inl.inr.inr => exact absurd same differ
    case inr.inr.inl => exact absurd same.symm differ
    case inr.inr.inr.inl => exact absurd same.symm differ
    all_goals exact ⟨rfl, rfl, rfl⟩
  have own : ∀ operation ∈ operations, operation.Own tasks := by
    simp only [operations, List.forall_mem_cons, Operation.Own, true_and]
    exact ⟨⟨List.mem_cons_self .., rfl⟩, ⟨by simp [tasks], rfl⟩, ⟨by simp [tasks], rfl⟩,
      Or.inr ⟨elsewhere, by simp [tasks], rfl, rfl⟩, List.forall_mem_nil _⟩
  obtain ⟨paired, owners, -⟩ :=
    entries_paired standard tasks operations "q" typed.fingerprint recordable toldApart own
  have kept : state.payloads.get? typed.fingerprint = some typed.failedAgain.encode := by
    decide +kernel
  refine ⟨recordable, toldApart, own, paired, kept, ?_⟩
  obtain ⟨task, decoded, -, alone⟩ := owners _ kept
  have again : Task.decode typed.failedAgain.encode = .ok typed.failedAgain := by cbv
  obtain rfl := Except.ok.inj (again.symm.trans decoded)
  exact alone

end Engine
end TenantQueue
