import TenantQueue.Proofs.Queue.Selection

/-! How asking an engine for the next task ends, by the record that the serving takes. On a store in
memory the record is the one that comes next, and a serving pops at most once more than there
are registered tenants. -/
namespace TenantQueue

theorem Task.decode_error {record : Bytes} {failure : Failure}
    (decoded : Task.decode record = .error failure) : failure = .serialization .packed := by
  unfold Task.decode at decoded
  split at decoded
  · contradiction
  · exact (Except.error.inj decoded).symm

namespace Engine
open Program
variable {σ : Type} {queue : String} {state middle last : σ} {tenant : Tenant} {record : Bytes}
  {notices : List Notice}

theorem releaseSlot_run (backend : Backend σ)
    (released : backend.perform (.release queue tenant) state = (.ok (), last)) :
    (releaseSlot queue tenant).run backend state = (.ok (), [], last) := by
  change (Program.call (Call.release queue tenant) _).run backend state = _
  simp only [run, released]
  rfl

theorem next_run_none (backend : Backend σ)
    (served : popUntil backend queue state = (.ok none, notices, last)) :
    (next queue).run backend state = (.ok none, notices, last) := by
  simp [next, run, served]

theorem next_run_task (backend : Backend σ) {task : Task}
    (served : popUntil backend queue state = (.ok (some (tenant, record)), notices, last))
    (decoded : Task.decode record = .ok task) :
    (next queue).run backend state = (.ok (some task), notices, last) := by
  simp [next, run, served, readPopped, decoded, Bind.bind, Program.bind, Pure.pure]

theorem next_run_unreadable (backend : Backend σ) {failure : Failure}
    (served : popUntil backend queue state = (.ok (some (tenant, record)), notices, middle))
    (decoded : Task.decode record = .error failure)
    (released : backend.perform (.release queue tenant) middle = (.ok (), last)) :
    (next queue).run backend state = (.failed failure, notices, last) := by
  have gaveBack := releaseSlot_run backend released
  simp only [next, run, served, readPopped, decoded, Bind.bind]
  rw [run_bind, run_bind, gaveBack]
  simp [run]

theorem perform_release (store : MemoryStore) (queue : String) (tenant : Tenant) :
    MemoryStore.backend.perform (.release queue tenant) store =
      (.ok (), store.update queue fun state => state.release tenant) := rfl

/-- A call that is not disrupted leaves the number of pops as it is, if it is none. -/
theorem perform_release_never (counted : Disrupted MemoryStore) (queue : String)
    (tenant : Tenant) :
    ∃ last : Disrupted MemoryStore,
      (Disrupted.backend MemoryStore.backend Disrupted.never).perform (.release queue tenant)
        counted = (.ok (), last) ∧
      last.store = counted.store.update queue (fun state => state.release tenant) ∧
      last.made .pop = counted.made .pop := by
  refine ⟨_, Disrupted.perform_never MemoryStore.backend (.release queue tenant) counted, rfl, ?_⟩
  rw [Disrupted.made_set]
  exact if_neg nofun

theorem next_sound (store : MemoryStore) (queue : String) (sound : store.Sound) :
    ((next queue).run MemoryStore.backend store).2.2.Sound :=
  run_keeps MemoryStore.backend MemoryStore.Sound
    (fun call store sound => MemoryStore.perform_sound store call sound) (next queue) store sound

/-- How asking for the next task ends on a store in memory, with the pops that it takes. -/
theorem next_selects (store : MemoryStore) (queue : String) (sound : store.Sound) :
    ∃ outcome notices last counted,
      (next queue).run MemoryStore.backend store = (outcome, notices, last) ∧
      (next queue).run (Disrupted.backend MemoryStore.backend Disrupted.never)
        (Disrupted.ofStore store) = (outcome, notices, counted) ∧
      counted.store = last ∧
      counted.made .pop ≤ (store.queue queue).registry.size + 1 ∧
      (∀ other, other ≠ queue → last.queue other = store.queue other) ∧
      (((popUntil MemoryStore.backend queue store).1 = .ok none ∧ outcome = .ok none ∧
          (∀ tenant, ¬(store.queue queue).Waits tenant) ∧
          (store.queue queue).Clears (last.queue queue)) ∨
        ∃ tenant record count,
          (popUntil MemoryStore.backend queue store).1 = .ok (some (tenant, record)) ∧
          ((∃ task, Task.decode record = .ok task ∧ outcome = .ok (some task) ∧
            (store.queue queue).Serves (last.queue queue) tenant record count (count + 1)) ∨
          (Task.decode record = .error (.serialization .packed) ∧
            outcome = .failed (.serialization .packed) ∧
            (store.queue queue).Serves (last.queue queue) tenant record count count))) := by
  obtain ⟨found, notices, middle, served, short, frame, selects⟩ :=
    MemoryStore.popUntil_selects store queue sound
  obtain ⟨counted, servedCounted, kept, pops⟩ :=
    Disrupted.popUntil_never MemoryStore.backend queue (Disrupted.ofStore store)
  have start : (Disrupted.ofStore store).made .pop = 0 := rfl
  have bare : (Disrupted.ofStore store).store = store := rfl
  simp only [bare, served] at servedCounted kept pops
  have few : counted.made .pop ≤ (store.queue queue).registry.size + 1 := by omega
  have outcome := congrArg Prod.fst served
  cases found with
  | none =>
    exact ⟨_, _, _, _, next_run_none _ served, next_run_none _ servedCounted, kept, few, frame,
      Or.inl ⟨outcome, rfl, selects⟩⟩
  | some pair =>
    obtain ⟨tenant, record⟩ := pair
    obtain ⟨count, serves⟩ := selects
    cases decoded : Task.decode record with
    | ok task =>
      exact ⟨_, _, _, _, next_run_task _ served decoded, next_run_task _ servedCounted decoded,
        kept, few, frame, Or.inr ⟨tenant, record, count, outcome, Or.inl ⟨task, decoded, rfl, serves⟩⟩⟩
    | error failure =>
      have cause := Task.decode_error decoded
      subst cause
      obtain ⟨last, released, lastStore, samePops⟩ := perform_release_never counted queue tenant
      rw [kept] at lastStore
      refine ⟨_, _, _, _, next_run_unreadable _ served decoded (perform_release middle queue tenant),
        next_run_unreadable _ servedCounted decoded released, lastStore, samePops ▸ few, ?_,
        Or.inr ⟨tenant, record, count, outcome, Or.inr ⟨decoded, rfl, ?_⟩⟩⟩
      · intro other differ
        rw [MemoryStore.update, MemoryStore.queue_setQueue_eq, if_neg (Ne.symm differ)]
        exact frame other differ
      · rw [MemoryStore.update, MemoryStore.queue_setQueue_eq, if_pos rfl]
        exact serves.release (sound queue)

end Engine

/-- Whoever has a pending record and comes first in the registry is served next, with the first of
its records. A record that cannot be read is gone, and its slot is given back. -/
theorem MemoryStore.next_serves_least (calls : List Call) (queue : String) :
    ∃ outcome notices last,
      (Engine.next queue).run backend (after calls) = (outcome, notices, last) ∧
      ((∃ tenant, ((after calls).queue queue).Waits tenant) →
        ∃ tenant record count,
          (∃ task, Task.decode record = .ok task ∧ outcome = .ok (some task) ∧
            ((after calls).queue queue).Serves (last.queue queue) tenant record count (count + 1)) ∨
          (Task.decode record = .error (.serialization .packed) ∧
            outcome = .failed (.serialization .packed) ∧
            ((after calls).queue queue).Serves (last.queue queue) tenant record count count)) ∧
      ((∀ tenant, ¬((after calls).queue queue).Waits tenant) →
        outcome = .ok none ∧ ((after calls).queue queue).Clears (last.queue queue)) ∧
      (∀ other, other ≠ queue → last.queue other = (after calls).queue other) ∧
      ∃ counted,
        (Engine.next queue).run (Disrupted.backend backend Disrupted.never)
          (Disrupted.ofStore (after calls)) = (outcome, notices, counted) ∧
        counted.store = last ∧
        counted.made .pop ≤ ((after calls).queue queue).registry.size + 1 := by
  obtain ⟨outcome, notices, last, counted, ran, ranCounted, kept, few, frame, selected⟩ :=
    Engine.next_selects (after calls) queue (after_sound calls)
  refine ⟨outcome, notices, last, ran, ?_, ?_, frame, counted, ranCounted, kept, few⟩
  · rintro ⟨tenant, waits⟩
    rcases selected with ⟨_, _, nobody, _⟩ | ⟨served, record, count, _, ended⟩
    · exact absurd waits (nobody tenant)
    · exact ⟨served, record, count, ended⟩
  · intro nobody
    rcases selected with ⟨_, nothing, _, clears⟩ | ⟨tenant, record, count, _, ended⟩
    · exact ⟨nothing, clears⟩
    · rcases ended with ⟨_, _, _, serves⟩ | ⟨_, _, serves⟩ <;>
        exact absurd serves.waits (nobody tenant)

end TenantQueue
