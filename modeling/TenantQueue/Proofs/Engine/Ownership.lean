import TenantQueue.Proofs.Engine.Pairing
import TenantQueue.Proofs.Task.RoundTrip

/-! Whose task is in a pending record. As long as tasks are added under their own tenants, and work on
them begins and ends so that a sweep finds them under these, every record is pending for the tenant of the
task in it. -/
namespace TenantQueue

/-- A record that is pushed can be read only as a task of the tenant it is pushed for. -/
def Call.Owns : Call → Prop
  | push _ tenant record _ => ∀ task, Task.decode record = .ok task → task.tenant = tenant
  | _ => True

theorem Task.Recordable.tenant_eq {task read : Task} (recordable : task.Recordable)
    (decoded : Task.decode task.encode = .ok read) : read.tenant = task.tenant := by
  have back := Task.decode_encode task [] recordable
  rw [List.append_nil, decoded, Except.ok.injEq] at back
  rw [back]

theorem Task.Recordable.failedAgain {task : Task} (recordable : task.Recordable) :
    task.failedAgain.Recordable :=
  ⟨recordable.taskType, recordable.payload, recordable.queuedOn⟩

namespace QueueState

def Owned (state : QueueState) : Prop :=
  ∀ tenant record task, ((state.pendingOf tenant).score? record).isSome →
    Task.decode record = .ok task → task.tenant = tenant

theorem empty_owned : empty.Owned := by
  intro tenant record task present
  simp [pendingOf, empty] at present

theorem Owned.of_fewer {state next : QueueState} (owned : state.Owned)
    (fewer : ∀ tenant record, ((next.pendingOf tenant).score? record).isSome →
      ((state.pendingOf tenant).score? record).isSome) : next.Owned :=
  fun tenant record task present => owned tenant record task (fewer tenant record present)

theorem Owned.push {state : QueueState} (owned : state.Owned) (tenant : Tenant) (record : Bytes)
    (score : Double) (own : ∀ task, Task.decode record = .ok task → task.tenant = tenant) :
    (state.push tenant record score).Owned := by
  intro other bytes task present decoded
  rw [pendingOf_push] at present
  by_cases sameTenant : tenant = other
  · subst sameTenant
    by_cases sameRecord : record = bytes
    · subst sameRecord
      exact own task decoded
    · rw [if_pos rfl, ScoredSet.score?_insert, if_neg sameRecord] at present
      exact owned tenant bytes task present decoded
  · rw [if_neg sameTenant] at present
    exact owned other bytes task present decoded

theorem Owned.after {state : QueueState} (owned : state.Owned) (sound : state.Sound) (call : Call)
    (own : call.Owns) : (state.after call).Owned := by
  cases call with
  | push queue tenant record score => exact owned.push tenant record score own
  | pop queue =>
    unfold QueueState.after
    rcases pop_cases state sound with ⟨popped, _⟩ | ⟨tenant, count, _, served | dismissed⟩
    · rw [popped]
      exact owned
    · obtain ⟨record, score, _, popped⟩ := served
      rw [popped]
      refine owned.of_fewer fun other bytes present => ?_
      dsimp only at present
      rw [pendingOf_serve state tenant other record sound] at present
      split at present
      · rename_i same
        rw [ScoredSet.score?_erase] at present
        split at present
        · contradiction
        · exact same ▸ present
      · exact present
    · rw [dismissed.2]
      refine owned.of_fewer fun other bytes present => ?_
      dsimp only at present
      rwa [pendingOf_dismiss state tenant other sound dismissed.1] at present
  | size queue => exact owned
  | release queue tenant => exact owned
  | activeTenants queue => exact owned
  | addProcessing queue tenant fingerprint deadline => exact owned
  | removeProcessing queue tenant fingerprint => exact owned
  | expiredProcessing queue tenant now => exact owned
  | setPayload queue fingerprint record => exact owned
  | getPayload queue fingerprint => exact owned
  | deletePayload queue fingerprint => exact owned

variable {engine : Engine} {queue : String} {now : Instant}
  {entries : List (Tenant × Fingerprint)} {state last : QueueState} {count : Nat}

def KeepsOwn (state : QueueState) (entries : List (Tenant × Fingerprint)) : Prop :=
  ∀ tenant fingerprint record task, (tenant, fingerprint) ∈ entries →
    state.payloads.get? fingerprint = some record → Task.decode record = .ok task →
    task.tenant = tenant

theorem Owned.settle (owned : state.Owned) (tenant : Tenant) (fingerprint : Fingerprint)
    (keepsOwn : state.KeepsOwn [(tenant, fingerprint)]) :
    (state.settle tenant fingerprint
      (engine.fate queue now (state.payloads.get? fingerprint))).Owned := by
  cases stored : state.payloads.get? fingerprint with
  | none => exact owned
  | some record =>
    cases decoded : Task.decode record with
    | error failure =>
      simp only [Engine.fate, decoded]
      exact owned
    | ok task =>
      have own := keepsOwn tenant fingerprint record task (List.mem_singleton_self _) stored decoded
      simp only [Engine.fate, decoded]
      split
      · exact owned
      · split
        · exact owned
        · subst own
          exact owned.push _ _ _ fun read again =>
            (Task.decode_recordable decoded).failedAgain.tenant_eq again

theorem Delivers.owned (delivers : Delivers engine queue now entries state count last)
    (owned : state.Owned) (keepsOwn : state.KeepsOwn entries) : last.Owned := by
  induction delivers with
  | nil => exact owned
  | @cons tenant entry entries state last fate count others met goesOn _ ih =>
    apply ih
    · rw [← met]
      refine owned.settle tenant entry fun owner fingerprint record task listed => ?_
      obtain ⟨rfl, rfl⟩ := Prod.mk.inj (List.mem_singleton.mp listed)
      exact keepsOwn owner fingerprint record task (List.mem_cons_self ..)
    · intro owner fingerprint record task listed stored
      rw [payloads_settle _ _ _ _ _ goesOn] at stored
      split at stored
      · contradiction
      · exact keepsOwn owner fingerprint record task (List.mem_cons_of_mem _ listed) stored

theorem Sweeps.owned {outcome : Outcome Nat}
    (sweeps : Sweeps engine queue now entries state outcome last) (owned : state.Owned)
    (keepsOwn : state.KeepsOwn entries) : last.Owned := by
  rcases sweeps with ⟨count, _, delivers⟩ | ⟨before, _, _, rest, count, split, delivers, _, _⟩
  · exact delivers.owned owned keepsOwn
  · refine delivers.owned owned fun tenant fingerprint record task listed => ?_
    exact keepsOwn tenant fingerprint record task (split ▸ List.mem_append_left _ listed)

theorem Paired.keepsOwn {tasks : List Task} (paired : state.Paired tasks)
    (recordable : ∀ task ∈ tasks, task.Recordable)
    (present : ∀ tenant fingerprint, (tenant, fingerprint) ∈ entries →
      ((state.processingOf tenant).score? fingerprint).isSome) : state.KeepsOwn entries := by
  intro tenant fingerprint record read listed stored decoded
  have here := present tenant fingerprint listed
  rcases paired fingerprint with ⟨missing, _⟩ | ⟨task, known, _, kept, owners⟩
  · rw [missing] at stored
    contradiction
  · rw [(owners tenant).mp here]
    obtain rfl := Option.some.inj (kept.symm.trans stored)
    exact (recordable task known).tenant_eq decoded

end QueueState

/-- A task that is added is one that a record can hold, and is added under its own tenant. -/
def Operation.AddsOwn : Operation → Prop
  | .enqueue _ taskType tenant payload _ queuedOn _ =>
    (⟨taskType, tenant, payload, queuedOn, 0⟩ : Task).Recordable
  | .enqueueAt _ tenant task _ _ => task.Recordable ∧ tenant = task.tenant
  | _ => True

namespace Engine
open Program
variable {tasks : List Task} {store : MemoryStore}

theorem makes_enqueueAt_owns (engine : Engine) (queue : String) (task : Task) (time : Instant)
    (priority : Priority) (recordable : task.Recordable) :
    (engine.enqueueAt queue task.tenant task time priority).Makes Call.Owns :=
  makes_bind _ _ (makes_ofExcept _) fun _ =>
    makes_bind _ _ (makes_perform _ fun _ decoded => recordable.tenant_eq decoded) fun _ => trivial

private theorem leaves_owned {α : Type} (program : Program α) (makes : program.Makes Call.Owns)
    (sound : store.Sound) (queue : String) (owned : (store.queue queue).Owned) :
    ((program.leaves store).queue queue).Owned := by
  refine (run_keeps_of_makes MemoryStore.backend
    (fun store => store.Sound ∧ (store.queue queue).Owned) ?_ program store makes
    ⟨sound, owned⟩).2
  intro call store owns kept
  refine ⟨MemoryStore.perform_sound store call kept.1, ?_⟩
  change ((store.perform call).2.queue queue).Owned
  rw [MemoryStore.queue_perform]
  split
  · rename_i own
    subst own
    exact kept.2.after (kept.1 _) call owns
  · exact kept.2

theorem perform_owned (engine : Engine) (operation : Operation) (queue : String)
    (recordable : ∀ task ∈ tasks, task.Recordable) (adds : operation.AddsOwn) (sound : store.Sound)
    (paired : ∀ name, (store.queue name).Paired tasks) (owned : (store.queue queue).Owned) :
    ((engine.perform store operation).queue queue).Owned := by
  cases operation with
  | enqueue name taskType tenant payload priority queuedOn time =>
    exact leaves_owned _ (makes_enqueueAt_owns engine name _ time priority adds) sound queue owned
  | enqueueAt name tenant task time priority =>
    obtain ⟨fits, rfl⟩ := adds
    exact leaves_owned _ (makes_enqueueAt_owns engine name task time priority fits) sound queue owned
  | next name =>
    exact leaves_owned _ (makes_next name trivial fun _ => trivial) sound queue owned
  | complete name tenant =>
    exact leaves_owned _ (makes_complete name tenant trivial) sound queue owned
  | beginProcessing name tenant task span now =>
    exact leaves_owned _ (makes_beginProcessing name tenant task span now trivial trivial trivial)
      sound queue owned
  | endProcessing name tenant fingerprint =>
    refine leaves_owned _ ?_ sound queue owned
    unfold endProcessing
    split
    · trivial
    · exact makes_dropEntry name tenant fingerprint trivial trivial
  | requeueExpired name now =>
    obtain ⟨registered, outcome, last, state, ended, _, listed, becomes, sweeps⟩ :=
      ends_requeueExpired engine store name now sound
    rw [perform, ended.leaves, becomes queue]
    split
    · rename_i same
      subst same
      refine sweeps.owned owned ((paired name).keepsOwn recordable ?_)
      intro tenant fingerprint member
      obtain ⟨_, deadline, found, _⟩ := QueueState.expired_of_mem_expiredOf _ _ registered tenant
        fingerprint (sound name) listed member
      exact Option.isSome_of_eq_some found
    · exact owned
  | overwrite name fingerprint record =>
    exact leaves_owned _ (makes_perform (.setPayload name fingerprint record) trivial) sound queue owned
  | lose name fingerprint =>
    exact leaves_owned _ (makes_perform (.deletePayload name fingerprint) trivial) sound queue owned

end Engine

/-- A store in which every task, pending or worked on, is kept under its own tenant. -/
structure MemoryStore.Proper (tasks : List Task) (store : MemoryStore) : Prop where
  sound : store.Sound
  paired : ∀ queue, (store.queue queue).Paired tasks
  owned : ∀ queue, (store.queue queue).Owned

theorem MemoryStore.empty_proper (tasks : List Task) : MemoryStore.empty.Proper tasks where
  sound _ := QueueState.empty_sound
  paired _ := QueueState.empty_paired tasks
  owned _ := QueueState.empty_owned

theorem MemoryStore.Proper.push {tasks : List Task} {store : MemoryStore} (proper : store.Proper tasks)
    (queue : String) (tenant : Tenant) (record : Bytes) (score : Double)
    (own : ∀ task, Task.decode record = .ok task → task.tenant = tenant) :
    (store.perform (.push queue tenant record score)).2.Proper tasks where
  sound := MemoryStore.perform_sound store _ proper.sound
  paired name := by
    rw [MemoryStore.queue_perform]
    split
    · exact (proper.paired queue).of_same rfl rfl
    · exact proper.paired name
  owned name := by
    rw [MemoryStore.queue_perform]
    split
    · exact (proper.owned queue).push tenant record score own
    · exact proper.owned name

namespace Engine

theorem perform_proper {tasks : List Task} {store : MemoryStore} (engine : Engine)
    (operation : Operation) (recordable : ∀ task ∈ tasks, task.Recordable)
    (toldApart : Task.ToldApart tasks) (own : operation.Own tasks) (adds : operation.AddsOwn)
    (proper : store.Proper tasks) : (engine.perform store operation).Proper tasks where
  sound := perform_sound engine operation proper.sound
  paired queue := perform_paired engine operation queue toldApart own proper.sound (proper.paired queue)
  owned queue :=
    perform_owned engine operation queue recordable adds proper.sound proper.paired (proper.owned queue)

theorem after_proper {tasks : List Task} (engine : Engine) (operations : List Operation)
    (recordable : ∀ task ∈ tasks, task.Recordable) (toldApart : Task.ToldApart tasks)
    (own : ∀ operation ∈ operations, operation.Own tasks)
    (adds : ∀ operation ∈ operations, operation.AddsOwn) : (engine.after operations).Proper tasks := by
  induction operations using List.reverseRecOn with
  | nil => exact MemoryStore.empty_proper tasks
  | append_singleton before operation ih =>
    rw [after_append]
    refine perform_proper engine operation recordable toldApart (own operation (by simp))
      (adds operation (by simp)) (ih ?_ ?_)
    · exact fun earlier member => own earlier (List.mem_append_left _ member)
    · exact fun earlier member => adds earlier (List.mem_append_left _ member)

end Engine
end TenantQueue
