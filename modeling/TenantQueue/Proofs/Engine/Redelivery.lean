import TenantQueue.Proofs.Engine.Operations
import TenantQueue.Proofs.Queue.Delivery
import TenantQueue.Proofs.Queue.Total

/-! How the sweep of one queue ends on a store in memory. It reads the registered tenants once, and the
expired entries of each when it comes to it; these are still the entries that had expired when the
sweep began. -/
namespace TenantQueue

def MemoryStore.Becomes (store last : MemoryStore) (queue : String) (state : QueueState) : Prop :=
  ∀ name, last.queue name = if queue = name then state else store.queue name

namespace MemoryStore

theorem Becomes.queue {store last : MemoryStore} {queue : String} {state : QueueState}
    (becomes : store.Becomes last queue state) : last.queue queue = state := by
  rw [becomes queue, if_pos rfl]

theorem becomes_self (store : MemoryStore) (queue : String) :
    store.Becomes store queue (store.queue queue) := by
  intro name
  split
  · rename_i same
    rw [same]
  · rfl

theorem becomes_perform (store : MemoryStore) (call : Call) :
    store.Becomes (store.perform call).2 call.queue ((store.queue call.queue).after call) :=
  queue_perform store call

theorem Becomes.trans {store middle last : MemoryStore} {queue : String} {first second : QueueState}
    (once : store.Becomes middle queue first) (twice : middle.Becomes last queue second) :
    store.Becomes last queue second := by
  intro name
  rw [twice name]
  split
  · rfl
  · rename_i differ
    rw [once name, if_neg differ]

theorem Becomes.sound {store last : MemoryStore} {queue : String} {state : QueueState}
    (becomes : store.Becomes last queue state) (sound : store.Sound) (soundToo : state.Sound) :
    last.Sound := by
  intro name
  rw [becomes name]
  split
  · exact soundToo
  · exact sound name

end MemoryStore

namespace Engine
open Program

theorem ends_dropEntry (store : MemoryStore) (queue : String) (tenant : Tenant)
    (fingerprint : Fingerprint) :
    ∃ last, (dropEntry queue tenant fingerprint).Ends MemoryStore.backend store (.ok ()) last ∧
      store.Becomes last queue ((store.queue queue).dropEntry tenant fingerprint) := by
  have removed := store.becomes_perform (.removeProcessing queue tenant fingerprint)
  have deleted := (store.perform (.removeProcessing queue tenant fingerprint)).2.becomes_perform
    (.deletePayload queue fingerprint)
  have middle := removed.queue
  simp only [Call.queue] at middle
  simp only [Call.queue, middle] at deleted
  exact ⟨_, (ends_perform _ rfl).bind_ok (ends_perform _ rfl), removed.trans deleted⟩

theorem ends_beginProcessing (store : MemoryStore) (queue : String) (tenant : Tenant) (task : Task)
    (span : Duration) (now : Instant) :
    ∃ last, (beginProcessing queue tenant task span now).Ends MemoryStore.backend store
        (.ok task.fingerprint) last ∧
      store.Becomes last queue
        ((store.queue queue).beginEntry tenant task (now.epochSeconds.add span.seconds)) := by
  have added := store.becomes_perform (.addProcessing queue tenant task.fingerprint
    (now.epochSeconds.add span.seconds))
  have kept := (store.perform (.addProcessing queue tenant task.fingerprint
    (now.epochSeconds.add span.seconds))).2.becomes_perform
    (.setPayload queue task.fingerprint task.encode)
  have middle := added.queue
  simp only [Call.queue] at middle
  simp only [Call.queue, middle] at kept
  refine ⟨_, (ends_perform _ rfl).bind_ok ?_, added.trans kept⟩
  have sets : (Program.perform (.setPayload queue task.fingerprint task.encode)).attempt.Ends
      MemoryStore.backend (store.perform (.addProcessing queue tenant task.fingerprint
        (now.epochSeconds.add span.seconds))).2 (.ok (.ok ())) _ := ⟨[], rfl⟩
  exact sets.bind_ok ((ends_note _ (ends_done ())).bind_ok (ends_done _))

theorem ends_enqueueAt (engine : Engine) (store : MemoryStore) (queue : String) (tenant : Tenant)
    (task : Task) (time : Instant) (priority : Priority) (accepted : engine.check queue task = .ok ()) :
    ∃ last, (engine.enqueueAt queue tenant task time priority).Ends MemoryStore.backend store
        (.ok ()) last ∧
      store.Becomes last queue
        ((store.queue queue).push tenant task.encode (score time priority)) := by
  refine ⟨_, ?_, store.becomes_perform (.push queue tenant task.encode (score time priority))⟩
  rw [enqueueAt, accepted]
  exact (ends_done ()).bind_ok ((ends_perform _ rfl).bind_ok (ends_note _ (ends_done ())))

theorem ends_enqueueAt_refused (engine : Engine) (store : MemoryStore) (queue : String)
    (tenant : Tenant) (task : Task) (time : Instant) (priority : Priority) (failure : Failure)
    (refused : engine.check queue task = .error failure) :
    (engine.enqueueAt queue tenant task time priority).Ends MemoryStore.backend store
      (.failed failure) store := by
  rw [enqueueAt, refused]
  exact Ends.bind_failed ⟨[], rfl⟩

theorem ends_storedTask (store : MemoryStore) (queue : String) (tenant : Tenant)
    (fingerprint : Fingerprint) :
    (storedTask queue tenant fingerprint).Ends MemoryStore.backend store
      (.ok (((store.queue queue).payloads.get? fingerprint).bind fun record =>
        (Task.decode record).toOption)) store := by
  have read : (Program.perform (.getPayload queue fingerprint)).Ends MemoryStore.backend store
      (.ok ((store.queue queue).payloads.get? fingerprint)) store := ends_perform _ rfl
  refine read.bind_ok ?_
  cases (store.queue queue).payloads.get? fingerprint with
  | none => exact (ends_note _ (ends_done ())).bind_ok (ends_done none)
  | some record =>
    dsimp only [Option.bind_some]
    cases Task.decode record with
    | ok task => exact ends_done (some task)
    | error failure => exact (ends_note _ (ends_done ())).bind_ok (ends_done none)

theorem ends_requeue (engine : Engine) (store : MemoryStore) (queue : String) (tenant : Tenant)
    (task : Task) (now time : Instant)
    (due : redeliveryTime? now (engine.config.backoff (task.errorCount + 1)) = some time)
    (accepted : engine.check queue task = .ok ()) :
    ∃ last, (engine.requeue queue tenant task now).Ends MemoryStore.backend store (.ok ()) last ∧
      store.Becomes last queue (((store.queue queue).push tenant task.failedAgain.encode
        (score time .normal)).release tenant) := by
  obtain ⟨pushed, pushes, first⟩ :=
    ends_enqueueAt engine store queue tenant task.failedAgain time .normal accepted
  have second := pushed.becomes_perform (.release queue tenant)
  simp only [Call.queue, first.queue] at second
  refine ⟨_, ?_, first.trans second⟩
  simp only [requeue, due]
  exact pushes.bind_ok ((ends_perform _ rfl).bind_ok (ends_note _ (ends_done ())))

theorem ends_requeueEntry (engine : Engine) (store : MemoryStore) (queue : String) (tenant : Tenant)
    (now : Instant) (fingerprint : Fingerprint) :
    let fate := engine.fate queue now ((store.queue queue).payloads.get? fingerprint)
    ∃ last, (engine.requeueEntry queue tenant now fingerprint).Ends MemoryStore.backend store
        fate.outcome last ∧
      store.Becomes last queue ((store.queue queue).settle tenant fingerprint fate) := by
  have stored := ends_storedTask store queue tenant fingerprint
  obtain ⟨last, drops, becomes⟩ := ends_dropEntry store queue tenant fingerprint
  cases present : (store.queue queue).payloads.get? fingerprint with
  | none =>
    rw [present, Option.bind_none] at stored
    exact ⟨last, stored.bind_ok (drops.bind_ok (ends_done 0)), becomes⟩
  | some record =>
    rw [present, Option.bind_some] at stored
    cases decoded : Task.decode record with
    | error failure =>
      rw [decoded] at stored
      simp only [fate, decoded]
      exact ⟨last, stored.bind_ok (drops.bind_ok (ends_done 0)), becomes⟩
    | ok task =>
      rw [decoded] at stored
      simp only [fate, decoded]
      cases due : redeliveryTime? now (engine.config.backoff (task.errorCount + 1)) with
      | none =>
        have crashes : (engine.requeue queue tenant task now).Ends MemoryStore.backend store
            (.crashed .beyondCalendar) store := by
          simp only [requeue, due]
          exact ⟨[], rfl⟩
        exact ⟨store, stored.bind_ok crashes.bind_crashed, store.becomes_self queue⟩
      | some time =>
        cases accepted : engine.check queue task with
        | error failure =>
          have refuses : (engine.requeue queue tenant task now).Ends MemoryStore.backend store
              (.failed failure) store := by
            simp only [requeue, due]
            exact (ends_enqueueAt_refused engine store queue tenant task.failedAgain time .normal
              failure accepted).bind_failed
          exact ⟨store, stored.bind_ok refuses.bind_failed, store.becomes_self queue⟩
        | ok accepts =>
          obtain ⟨requeued, requeues, first⟩ :=
            ends_requeue engine store queue tenant task now time due accepted
          obtain ⟨dropped, drops, second⟩ := ends_dropEntry requeued queue tenant fingerprint
          rw [first.queue] at second
          exact ⟨dropped, stored.bind_ok (requeues.bind_ok (drops.bind_ok (ends_done 1))),
            first.trans second⟩

section
variable {α σ : Type} {backend : Backend σ} {work : α → Program Nat} {member : α} {rest : List α}
  {state middle last : σ} {count : Nat} {outcome : Outcome Nat}

theorem ends_total_cons (first : (work member).Ends backend state (.ok count) middle)
    (others : (total work rest).Ends backend middle outcome last) :
    (total work (member :: rest)).Ends backend state (outcome.plus count) last := by
  refine first.bind_ok ?_
  cases outcome with
  | ok more => exact others.bind_ok (ends_done (count + more))
  | failed failure => exact others.bind_failed
  | crashed crash => exact others.bind_crashed

theorem ends_total_stopped (first : (work member).Ends backend state outcome last)
    (stops : ∀ count, outcome ≠ .ok count) :
    (total work (member :: rest)).Ends backend state outcome last := by
  cases outcome with
  | ok count => exact absurd rfl (stops count)
  | failed failure => exact first.bind_failed
  | crashed crash => exact first.bind_crashed

end

theorem ends_total_requeueEntry (engine : Engine) (store : MemoryStore) (queue : String)
    (tenant : Tenant) (now : Instant) (fingerprints : List Fingerprint) :
    ∃ outcome last state, (total (engine.requeueEntry queue tenant now) fingerprints).Ends
        MemoryStore.backend store outcome last ∧
      store.Becomes last queue state ∧
      QueueState.Sweeps engine queue now (fingerprints.map fun fingerprint => (tenant, fingerprint))
        (store.queue queue) outcome state := by
  induction fingerprints generalizing store with
  | nil =>
    exact ⟨.ok 0, store, store.queue queue, ends_done 0, store.becomes_self queue,
      Or.inl ⟨0, rfl, .nil _⟩⟩
  | cons fingerprint rest ih =>
    obtain ⟨middle, entryEnds, once⟩ := ends_requeueEntry engine store queue tenant now fingerprint
    by_cases goesOn : ∃ count, (engine.fate queue now
        ((store.queue queue).payloads.get? fingerprint)).outcome = .ok count
    · obtain ⟨count, goesOn⟩ := goesOn
      obtain ⟨outcome, last, state, restEnds, twice, sweeps⟩ := ih middle
      rw [goesOn] at entryEnds
      rw [once.queue] at sweeps
      have one : QueueState.Delivers engine queue now [(tenant, fingerprint)] (store.queue queue)
          count _ := .cons rfl goesOn (.nil _)
      exact ⟨_, last, state, ends_total_cons entryEnds restEnds, once.trans twice,
        one.sweeps_append sweeps⟩
    · have stops (count : Nat) := not_exists.mp goesOn count
      rw [QueueState.settle_stopped _ _ _ _ stops] at once
      exact ⟨_, middle, _, ends_total_stopped entryEnds stops, once,
        Or.inr ⟨[], tenant, fingerprint, _, 0, rfl, .nil _, rfl, stops⟩⟩

theorem ends_tenantTurn (engine : Engine) (store : MemoryStore) (queue : String) (tenant : Tenant)
    (now : Instant) :
    ∃ outcome last state, (do
          let expired ← Program.perform (.expiredProcessing queue tenant now.epochSeconds)
          total (engine.requeueEntry queue tenant now) expired).Ends
        MemoryStore.backend store outcome last ∧
      store.Becomes last queue state ∧
      QueueState.Sweeps engine queue now
        (((store.queue queue).expiredProcessing tenant now.epochSeconds).map fun fingerprint =>
          (tenant, fingerprint)) (store.queue queue) outcome state := by
  obtain ⟨outcome, last, state, ended, becomes, sweeps⟩ := ends_total_requeueEntry engine store
    queue tenant now ((store.queue queue).expiredProcessing tenant now.epochSeconds)
  have read : (Program.perform (.expiredProcessing queue tenant now.epochSeconds)).Ends
      MemoryStore.backend store
      (.ok ((store.queue queue).expiredProcessing tenant now.epochSeconds)) store :=
    ends_perform _ rfl
  exact ⟨outcome, last, state, read.bind_ok ended, becomes, sweeps⟩

private theorem ends_total_tenants (engine : Engine) (store : MemoryStore) (queue : String)
    (now : Instant) (registered : List (Tenant × Int)) (sound : store.Sound)
    (distinct : (registered.map Prod.fst).Nodup) :
    ∃ outcome last state, (total (fun entry => do
          let expired ← Program.perform (.expiredProcessing queue entry.1 now.epochSeconds)
          total (engine.requeueEntry queue entry.1 now) expired) registered).Ends
        MemoryStore.backend store outcome last ∧
      store.Becomes last queue state ∧
      QueueState.Sweeps engine queue now
        ((store.queue queue).expiredOf now.epochSeconds registered) (store.queue queue) outcome
          state := by
  induction registered generalizing store with
  | nil =>
    exact ⟨.ok 0, store, store.queue queue, ends_done 0, store.becomes_self queue,
      Or.inl ⟨0, rfl, .nil _⟩⟩
  | cons entry rest ih =>
    obtain ⟨fresh, tail⟩ := List.nodup_cons.mp distinct
    obtain ⟨outcome, middle, state, turn, once, sweeps⟩ :=
      ends_tenantTurn engine store queue entry.1 now
    by_cases goesOn : ∃ count, outcome = .ok count
    · obtain ⟨count, rfl⟩ := goesOn
      have delivers := sweeps.delivers
      have same := delivers.expiredOf_others (sound queue) now.epochSeconds rest fresh
      have middleSound := once.sound sound (delivers.sound (sound queue))
      obtain ⟨others, last, lastState, restEnds, twice, restSweeps⟩ := ih middle middleSound tail
      rw [once.queue, same] at restSweeps
      refine ⟨_, last, lastState, ends_total_cons turn restEnds, once.trans twice, ?_⟩
      simp only [QueueState.expiredOf, List.flatMap_cons]
      exact delivers.sweeps_append restSweeps
    · have stops (count : Nat) := not_exists.mp goesOn count
      refine ⟨outcome, middle, state, ends_total_stopped turn stops, once, ?_⟩
      simp only [QueueState.expiredOf, List.flatMap_cons]
      exact sweeps.append_stopped stops

theorem ends_activeTenants (store : MemoryStore) (queue : String) (sound : store.Sound) :
    ∃ registered, (activeTenants queue).Ends MemoryStore.backend store (.ok registered) store ∧
      (registered.map Prod.fst).Nodup ∧
      ∀ tenant count, (tenant, count) ∈ registered ↔
        (store.queue queue).inFlight tenant = some count := by
  obtain ⟨registered, read⟩ := QueueState.exists_entries _ (sound queue)
  have active := QueueState.activeTenants_eq _ registered read
  refine ⟨registered, ends_perform _ ?_, QueueState.entries_nodup _ registered (sound queue) read,
    QueueState.mem_entries _ registered (sound queue) read⟩
  simp only [MemoryStore.backend, MemoryStore.perform, active, Outcome.ofExcept]

theorem ends_requeueExpired (engine : Engine) (store : MemoryStore) (queue : String) (now : Instant)
    (sound : store.Sound) :
    ∃ registered outcome last state,
      (engine.requeueExpired queue now).Ends MemoryStore.backend store outcome last ∧
      (registered.map Prod.fst).Nodup ∧
      (∀ tenant count, (tenant, count) ∈ registered ↔
        (store.queue queue).inFlight tenant = some count) ∧
      store.Becomes last queue state ∧
      QueueState.Sweeps engine queue now
        ((store.queue queue).expiredOf now.epochSeconds registered) (store.queue queue) outcome
          state := by
  obtain ⟨registered, asked, distinct, listed⟩ := ends_activeTenants store queue sound
  obtain ⟨outcome, last, state, ended, becomes, sweeps⟩ :=
    ends_total_tenants engine store queue now registered sound distinct
  exact ⟨registered, outcome, last, state, asked.bind_ok ended, distinct, listed, becomes, sweeps⟩

end Engine
end TenantQueue
