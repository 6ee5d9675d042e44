import TenantQueue.Proofs.Engine.Clearance

/-! Which processing entries a sweep can find. It asks for those of the registered tenants only, and
a serving dismisses the idle tenants that it comes by whether they have entries or not. These
dismissals, and entries made for a tenant after its own, are all that hides an entry. -/
namespace TenantQueue

namespace QueueState

/-- Each tenant that has a processing entry is registered. -/
def Recoverable (state : QueueState) : Prop :=
  ∀ tenant fingerprint deadline,
    (state.processingOf tenant).score? fingerprint = some deadline → (state.inFlight tenant).isSome

/-- A registered tenant is idle and stands before all that wait. -/
def PassedOver (state : QueueState) (tenant : Tenant) : Prop :=
  (state.inFlight tenant).isSome ∧ ¬state.Waits tenant ∧
    ∀ other, state.Waits other → state.Before tenant other

theorem empty_recoverable : empty.Recoverable := by
  intro tenant fingerprint deadline found
  simp [processingOf, empty] at found

theorem Before.registered {state : QueueState} {first second : Tenant}
    (before : state.Before first second) : (state.inFlight first).isSome := by
  obtain ⟨count, _, found, _⟩ := before
  exact Option.isSome_of_eq_some found

theorem Before.of_least {state next : QueueState} {tenant other first : Tenant} {record : Bytes}
    {count counted : Int} (serves : state.Serves next tenant record count counted)
    (before : state.Before first tenant) (waits : state.Waits other) : state.Before first other := by
  obtain ⟨firstCount, same, found, registered, less⟩ := before
  obtain ⟨otherCount, otherFound, least⟩ := serves.least other waits
  rw [serves.registered, Option.some.injEq] at registered
  subst registered
  exact ⟨firstCount, otherCount, found, otherFound, Std.TransCmp.lt_of_lt_of_isLE less least⟩

/-- A serving leaves registered whoever was, unless it is passed over. -/
theorem Serves.registered_iff {state next : QueueState} {tenant : Tenant} {record : Bytes}
    {count counted : Int} (serves : state.Serves next tenant record count counted)
    (other : Tenant) :
    (next.inFlight other).isSome ↔ (state.inFlight other).isSome ∧ ¬state.PassedOver other := by
  by_cases same : other = tenant
  · subst same
    have busy : ¬state.PassedOver other := fun passed => passed.2.1 serves.waits
    simp [serves.counted, serves.registered, busy]
  · by_cases passed : ¬state.Waits other ∧ state.Before other tenant
    · obtain ⟨idle, before⟩ := passed
      have passed : state.PassedOver other :=
        ⟨before.registered, idle, fun _ waits => before.of_least serves waits⟩
      have gone := serves.dismissed other idle before
      simp [gone, passed]
    · have stays : ¬state.PassedOver other := by
        rintro ⟨_, idle, before⟩
        exact passed ⟨idle, before tenant serves.waits⟩
      rw [serves.unmoved other same passed, and_iff_left stays]

/-- Where nobody waits, all are passed over. -/
theorem Clears.registered_iff {state next : QueueState} (clears : state.Clears next)
    (nobody : ∀ tenant, ¬state.Waits tenant) (tenant : Tenant) :
    (next.inFlight tenant).isSome ↔ (state.inFlight tenant).isSome ∧ ¬state.PassedOver tenant := by
  have gone : next.inFlight tenant = none := by
    rw [inFlight, clears.registry, ScoredSet.score?_empty]
  rw [gone]
  constructor
  · intro registered
    contradiction
  · rintro ⟨registered, stays⟩
    exact absurd ⟨registered, nobody tenant, fun other waits => absurd waits (nobody other)⟩ stays

end QueueState

def Call.KeepsEntries : Call → Prop
  | pop _ => False
  | addProcessing _ _ _ _ => False
  | _ => True

namespace QueueState

theorem Recoverable.of_kept {state next : QueueState} (recoverable : state.Recoverable)
    (entries : next.processing = state.processing)
    (registered : ∀ tenant, (state.inFlight tenant).isSome → (next.inFlight tenant).isSome) :
    next.Recoverable := by
  intro tenant fingerprint deadline found
  rw [processingOf, entries] at found
  exact registered tenant (recoverable tenant fingerprint deadline found)

theorem after_recoverable (state : QueueState) (call : Call) (sound : state.Sound)
    (recoverable : state.Recoverable) (keeps : call.KeepsEntries) :
    (state.after call).Recoverable := by
  cases call with
  | push queue tenant record score =>
    refine recoverable.of_kept rfl ?_
    intro other registered
    rw [after, inFlight_push]
    split
    · rfl
    · exact registered
  | release queue tenant =>
    refine recoverable.of_kept rfl ?_
    intro other registered
    rw [after, inFlight_release]
    split
    · rfl
    · exact registered
  | removeProcessing queue tenant fingerprint =>
    intro other entry deadline found
    rw [after, processingOf_removeProcessing state tenant other fingerprint sound] at found
    have kept : (state.processingOf other).score? entry = some deadline := by
      split at found
      · rename_i same
        subst same
        rw [ScoredSet.score?_erase] at found
        split at found
        · contradiction
        · exact found
      · exact found
    exact recoverable other entry deadline kept
  | setPayload queue fingerprint record => exact recoverable.of_kept rfl fun _ registered => registered
  | deletePayload queue fingerprint => exact recoverable.of_kept rfl fun _ registered => registered
  | size queue => exact recoverable
  | activeTenants queue => exact recoverable
  | expiredProcessing queue tenant now => exact recoverable
  | getPayload queue fingerprint => exact recoverable
  | pop queue => exact absurd keeps id
  | addProcessing queue tenant fingerprint deadline => exact absurd keeps id

theorem beginEntry_recoverable_iff (state : QueueState) (tenant : Tenant) (task : Task)
    (deadline : Double) (recoverable : state.Recoverable) :
    (state.beginEntry tenant task deadline).Recoverable ↔ (state.inFlight tenant).isSome := by
  constructor
  · intro all
    apply all tenant task.fingerprint
    rw [score?_beginEntry, if_pos ⟨rfl, rfl⟩]
  · intro registered other fingerprint otherDeadline found
    rw [score?_beginEntry] at found
    split at found
    · rename_i own
      exact own.1 ▸ registered
    · exact recoverable other fingerprint otherDeadline found

end QueueState

namespace Engine
open Program

/-- The operation hides an entry of the queue: a serving passes over its tenant, or it is made for a
tenant that is not registered. -/
def Hides (queue : String) (state : QueueState) : Operation → Prop
  | .next name => name = queue ∧ ∃ tenant fingerprint deadline,
      (state.processingOf tenant).score? fingerprint = some deadline ∧ state.PassedOver tenant
  | .beginProcessing name tenant _ _ _ => name = queue ∧ state.inFlight tenant = none
  | _ => False

theorem next_registered_iff (store : MemoryStore) (queue : String) (sound : store.Sound) :
    (((next queue).leaves store).queue queue).processing = (store.queue queue).processing ∧
    ∀ tenant, ((((next queue).leaves store).queue queue).inFlight tenant).isSome ↔
      ((store.queue queue).inFlight tenant).isSome ∧ ¬(store.queue queue).PassedOver tenant := by
  obtain ⟨outcome, notices, last, _, ran, _, _, _, _, selected⟩ := next_selects store queue sound
  have left : (next queue).leaves store = last := by
    rw [leaves, ran]
  rw [left]
  rcases selected with ⟨_, _, nobody, clears⟩ |
    ⟨tenant, record, count, _, ⟨_, _, _, serves⟩ | ⟨_, _, serves⟩⟩
  · exact ⟨clears.processing, clears.registered_iff nobody⟩
  · exact ⟨serves.processing, serves.registered_iff⟩
  · exact ⟨serves.processing, serves.registered_iff⟩

private theorem leaves_recoverable {α : Type} (program : Program α) (store : MemoryStore)
    (queue : String) (makes : program.Makes fun call => call.queue = queue → call.KeepsEntries)
    (sound : store.Sound) (recoverable : (store.queue queue).Recoverable) :
    ((program.leaves store).queue queue).Recoverable := by
  refine (run_keeps_of_makes MemoryStore.backend
    (fun store => store.Sound ∧ (store.queue queue).Recoverable) ?_ program store makes
    ⟨sound, recoverable⟩).2
  intro call store allowed kept
  refine ⟨MemoryStore.perform_sound store call kept.1, ?_⟩
  change ((store.perform call).2.queue queue).Recoverable
  rw [MemoryStore.queue_perform]
  split
  · rename_i own
    subst own
    exact QueueState.after_recoverable _ call (kept.1 _) kept.2 (allowed rfl)
  · exact kept.2

theorem perform_recoverable_iff (engine : Engine) (store : MemoryStore) (operation : Operation)
    (queue : String) (sound : store.Sound) (recoverable : (store.queue queue).Recoverable) :
    ((engine.perform store operation).queue queue).Recoverable ↔
      ¬Hides queue (store.queue queue) operation := by
  cases operation with
  | next name =>
    by_cases own : name = queue
    · subst own
      obtain ⟨entries, registered⟩ := next_registered_iff store name sound
      have same (tenant : Tenant) : (((next name).leaves store).queue name).processingOf tenant =
          (store.queue name).processingOf tenant := by
        rw [QueueState.processingOf, entries, QueueState.processingOf]
      constructor
      · rintro all ⟨_, tenant, fingerprint, deadline, found, passed⟩
        have stays := all tenant fingerprint deadline (by rw [perform, same]; exact found)
        exact ((registered tenant).mp stays).2 passed
      · intro nothing tenant fingerprint deadline found
        rw [perform, same] at found
        refine (registered tenant).mpr ⟨recoverable tenant fingerprint deadline found, ?_⟩
        intro passed
        exact nothing ⟨rfl, tenant, fingerprint, deadline, found, passed⟩
    · refine iff_of_true (leaves_recoverable _ store queue ?_ sound recoverable) fun hides => own hides.1
      exact makes_next name (fun same => absurd same own) fun _ _ => trivial
  | beginProcessing name tenant task span now =>
    by_cases own : name = queue
    · subst own
      obtain ⟨last, ended, becomes⟩ := ends_beginProcessing store name tenant task span now
      rw [perform, ended.leaves, becomes.queue,
        QueueState.beginEntry_recoverable_iff _ _ _ _ recoverable, Hides]
      simp [Option.isSome_iff_ne_none]
    · refine iff_of_true (leaves_recoverable _ store queue ?_ sound recoverable) fun hides => own hides.1
      exact makes_beginProcessing name tenant task span now (fun same => absurd same own)
        (fun _ => trivial) fun _ => trivial
  | enqueue name taskType tenant payload priority queuedOn time =>
    exact iff_of_true (leaves_recoverable _ store queue
      (makes_enqueueAt _ _ _ _ _ _ fun _ _ _ => trivial) sound recoverable) id
  | enqueueAt name tenant task time priority =>
    exact iff_of_true (leaves_recoverable _ store queue
      (makes_enqueueAt _ _ _ _ _ _ fun _ _ _ => trivial) sound recoverable) id
  | complete name tenant =>
    exact iff_of_true (leaves_recoverable _ store queue
      (makes_complete name tenant fun _ => trivial) sound recoverable) id
  | endProcessing name tenant fingerprint =>
    refine iff_of_true (leaves_recoverable _ store queue ?_ sound recoverable) id
    unfold endProcessing
    split
    · trivial
    · exact makes_dropEntry name tenant fingerprint (fun _ => trivial) fun _ => trivial
  | requeueExpired name now =>
    refine iff_of_true (leaves_recoverable _ store queue ?_ sound recoverable) id
    exact makes_requeueExpired engine name now (fun _ => trivial) (fun _ _ => trivial)
      (fun _ _ => trivial) (fun _ _ _ _ => trivial) (fun _ _ => trivial) (fun _ _ _ => trivial)
      fun _ _ => trivial
  | overwrite name fingerprint record =>
    exact iff_of_true (leaves_recoverable _ store queue (makes_perform _ fun _ => trivial) sound
      recoverable) id
  | lose name fingerprint =>
    exact iff_of_true (leaves_recoverable _ store queue (makes_perform _ fun _ => trivial) sound
      recoverable) id

/-- While nothing hides an entry all entries can be found, and no longer. A sweep comes to an entry
whose deadline has come exactly if its tenant is registered. -/
theorem entries_recoverable_iff (engine : Engine) (operations : List Operation) (queue : String) :
    ((∀ before rest, operations = before ++ rest →
        ((engine.after before).queue queue).Recoverable) ↔
      ∀ before operation rest, operations = before ++ operation :: rest →
        ¬Hides queue ((engine.after before).queue queue) operation) ∧
    ∀ now, ∃ entries outcome last,
      (engine.requeueExpired queue now).Ends MemoryStore.backend (engine.after operations) outcome
        last ∧
      QueueState.Sweeps engine queue now entries ((engine.after operations).queue queue) outcome
        (last.queue queue) ∧
      ∀ tenant fingerprint,
        ((engine.after operations).queue queue).IsDue tenant fingerprint now.epochSeconds →
        ((tenant, fingerprint) ∈ entries ↔
          (((engine.after operations).queue queue).inFlight tenant).isSome) := by
  have stepped (before : List Operation) (operation : Operation) :
      engine.after (before ++ [operation]) = engine.perform (engine.after before) operation :=
    after_append engine before [operation]
  have sound (before : List Operation) := (after_keeps engine before).1
  refine ⟨⟨?_, ?_⟩, ?_⟩
  · intro all before operation rest split
    have here := all before (operation :: rest) split
    have next := all (before ++ [operation]) rest (by rw [split, List.append_assoc, List.cons_append,
      List.nil_append])
    rw [stepped] at next
    exact (perform_recoverable_iff engine _ operation queue (sound before) here).mp next
  · intro nothing before
    -- The empty queue has no entries, and no operation of the run hides one.
    induction before using List.reverseRecOn with
    | nil =>
      intro rest split
      exact QueueState.empty_recoverable
    | append_singleton before operation ih =>
      intro rest split
      rw [List.append_assoc, List.cons_append, List.nil_append] at split
      rw [stepped]
      exact (perform_recoverable_iff engine _ operation queue (sound before)
        (ih (operation :: rest) split)).mpr (nothing before operation rest split)
  · intro now
    obtain ⟨entries, outcome, last, ended, _, expired, sweeps⟩ :=
      ends_requeueExpired_entries engine _ queue now (sound operations) (after_keeps engine operations).2
    refine ⟨entries, outcome, last, ended, sweeps, ?_⟩
    intro tenant fingerprint due
    rw [expired, QueueState.Expired, and_iff_left due]

def deserted : List Operation :=
  [.enqueueAt "q" ⟨1⟩ typed noon .normal, .next "q", .beginProcessing "q" ⟨1⟩ typed ⟨0⟩ noon, .next "q"]

/-- The entry is due, and the sweep does not come to it. -/
theorem deserted_entry_hidden :
    ((standard.after deserted).queue "q").IsDue ⟨1⟩ typed.fingerprint noon.epochSeconds ∧
      ∃ last, (standard.requeueExpired "q" noon).Ends MemoryStore.backend
          (standard.after deserted) (.ok 0) last ∧
        (last.queue "q").IsDue ⟨1⟩ typed.fingerprint noon.epochSeconds := by
  let popped := (next "q").leaves ((standard.enqueueAt "q" ⟨1⟩ typed noon .normal).leaves
    MemoryStore.empty)
  have poppedQueue : popped.queue "q" =
      { QueueState.empty with registry := ScoredSet.empty.insert "1" 1 } := by
    have pushed : (standard.enqueueAt "q" ⟨1⟩ typed noon .normal).leaves MemoryStore.empty =
        (MemoryStore.empty.perform (.push "q" ⟨1⟩ typed.encode (score noon .normal))).2 := rfl
    simp only [popped, pushed]
    generalize score noon .normal = time
    cbv
  obtain ⟨begun, begins, becomes⟩ := ends_beginProcessing popped "q" ⟨1⟩ typed ⟨0⟩ noon
  have reached : standard.after deserted = (next "q").leaves begun := by
    rw [← begins.leaves]
    rfl
  have begunSound : begun.Sound := by
    rw [← begins.leaves]
    exact (after_keeps standard [.enqueueAt "q" ⟨1⟩ typed noon .normal, .next "q",
      .beginProcessing "q" ⟨1⟩ typed ⟨0⟩ noon]).1
  obtain ⟨entriesKept, registered⟩ := next_registered_iff begun "q" begunSound
  rw [← reached] at entriesKept registered
  have begunQueue := becomes.queue
  rw [poppedQueue] at begunQueue
  have nobody (tenant : Tenant) : ¬(begun.queue "q").Waits tenant := by
    rw [begunQueue]
    rintro ⟨record, waits⟩
    contradiction
  have dismissed (tenant : Tenant) : (((standard.after deserted).queue "q").inFlight tenant) = none := by
    rw [← Option.not_isSome_iff_eq_none, registered]
    rintro ⟨present, stays⟩
    exact stays ⟨present, nobody tenant, fun other waits => absurd waits (nobody other)⟩
  have due : ((standard.after deserted).queue "q").IsDue ⟨1⟩ typed.fingerprint noon.epochSeconds := by
    refine ⟨noon.epochSeconds.add (Duration.seconds ⟨0⟩), ?_, by decide +kernel⟩
    rw [QueueState.processingOf, entriesKept, ← QueueState.processingOf, begunQueue,
      QueueState.score?_beginEntry, if_pos ⟨rfl, rfl⟩]
    have fresh (registry : ScoredSet Int String) : (QueueState.processingOf
      { QueueState.empty with registry := registry } ⟨1⟩).score? typed.fingerprint = none := rfl
    rw [fresh, Option.getD_none]
  obtain ⟨sound, timely⟩ := after_keeps standard deserted
  obtain ⟨entries, outcome, last, ended, _, expired, sweeps⟩ :=
    ends_requeueExpired_entries standard _ "q" noon sound timely
  have nothing : entries = [] := by
    refine List.eq_nil_iff_forall_not_mem.mpr ?_
    rintro ⟨tenant, fingerprint⟩ listed
    have present := ((expired tenant fingerprint).mp listed).1
    rw [dismissed] at present
    contradiction
  subst nothing
  obtain ⟨rfl, same⟩ := sweeps.of_nil
  exact ⟨due, last, ended, same ▸ due⟩

end Engine
end TenantQueue
