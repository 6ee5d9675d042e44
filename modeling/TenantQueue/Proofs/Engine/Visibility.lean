import TenantQueue.Proofs.Engine.Next
import TenantQueue.Proofs.Queue.Total

/-! No pending record is hidden: each belongs to a registered tenant, is counted in the size of its
queue, and is answered if the engine is asked often enough. The registry holds nothing but names of
tenants, so no call fails on it. -/
namespace TenantQueue

namespace MemoryStore

theorem perform_size (store : MemoryStore) (queue : String) (sound : store.Sound) :
    store.perform (.size queue) = (.ok (store.queue queue).pendingTotal, store) := by
  simp only [perform, QueueState.size_eq_pendingTotal _ (sound queue)]

theorem perform_activeTenants (store : MemoryStore) (queue : String) (sound : store.Sound) :
    ∃ entries, store.perform (.activeTenants queue) = (.ok entries, store) ∧
      (entries.map Prod.fst).Nodup ∧
      ∀ tenant count, (tenant, count) ∈ entries ↔
        (store.queue queue).inFlight tenant = some count := by
  obtain ⟨entries, read⟩ := QueueState.exists_entries _ (sound queue)
  refine ⟨entries, ?_, QueueState.entries_nodup _ entries (sound queue) read,
    QueueState.mem_entries _ entries (sound queue) read⟩
  simp only [perform, QueueState.activeTenants_eq _ entries read]

theorem perform_ok (store : MemoryStore) (call : Call) (sound : store.Sound) :
    ∃ reply, (store.perform call).1 = .ok reply := by
  cases call with
  | pop queue =>
    rcases perform_pop_cases store queue sound with
      ⟨popped, _⟩ | ⟨tenant, count, _, ⟨record, score, _, popped⟩ | ⟨_, popped⟩⟩
    · exact ⟨_, congrArg Prod.fst popped⟩
    · exact ⟨_, congrArg Prod.fst popped⟩
    · exact ⟨_, congrArg Prod.fst popped⟩
  | size queue => exact ⟨_, congrArg Prod.fst (perform_size store queue sound)⟩
  | activeTenants queue =>
    obtain ⟨entries, performed, _⟩ := perform_activeTenants store queue sound
    exact ⟨entries, congrArg Prod.fst performed⟩
  | push queue tenant record score => exact ⟨(), rfl⟩
  | release queue tenant => exact ⟨(), rfl⟩
  | addProcessing queue tenant fingerprint deadline => exact ⟨_, rfl⟩
  | removeProcessing queue tenant fingerprint => exact ⟨(), rfl⟩
  | expiredProcessing queue tenant now => exact ⟨_, rfl⟩
  | setPayload queue fingerprint record => exact ⟨(), rfl⟩
  | getPayload queue fingerprint => exact ⟨_, rfl⟩
  | deletePayload queue fingerprint => exact ⟨(), rfl⟩

end MemoryStore

namespace Engine
open Program

def answers (queue : String) : Nat → MemoryStore → List (Outcome (Option Task))
  | 0, _ => []
  | times + 1, store =>
    let (outcome, _, last) := (next queue).run MemoryStore.backend store
    outcome :: answers queue times last

def Answered : Outcome (Option Task) → Prop
  | .ok (some _) => True
  | .failed failure => failure = .serialization .packed
  | _ => False

/-- Asking for the next task uses up one pending record, if there is any. -/
theorem next_pendingTotal (store : MemoryStore) (queue : String) (sound : store.Sound) :
    ∃ outcome notices last,
      (next queue).run MemoryStore.backend store = (outcome, notices, last) ∧ last.Sound ∧
      ((outcome = .ok none ∧ (store.queue queue).pendingTotal = 0 ∧
          (last.queue queue).pendingTotal = 0) ∨
        (Answered outcome ∧
          (last.queue queue).pendingTotal + 1 = (store.queue queue).pendingTotal)) := by
  obtain ⟨outcome, notices, last, _, ran, _, _, _, _, selected⟩ := next_selects store queue sound
  have lastSound := next_sound store queue sound
  rw [ran] at lastSound
  refine ⟨outcome, notices, last, ran, lastSound, ?_⟩
  rcases selected with ⟨_, nothing, nobody, clears⟩ | ⟨tenant, record, count, _, ended⟩
  · left
    refine ⟨nothing, (QueueState.pendingTotal_eq_zero_iff _).mpr nobody,
      (QueueState.pendingTotal_eq_zero_iff _).mpr ?_⟩
    intro tenant waits
    apply nobody tenant
    simpa only [QueueState.Waits, clears.pending tenant] using waits
  · right
    rcases ended with ⟨task, _, rfl, serves⟩ | ⟨_, rfl, serves⟩
    · exact ⟨trivial, serves.pendingTotal (sound queue)⟩
    · exact ⟨rfl, serves.pendingTotal (sound queue)⟩

/-- There are as many answers as pending records, and then none for ever. -/
theorem answers_pendingTotal (store : MemoryStore) (queue : String) (total : Nat)
    (sound : store.Sound) (pending : (store.queue queue).pendingTotal = total) :
    ∃ results, results.length = total ∧ (∀ result ∈ results, Answered result) ∧
      ∀ further, answers queue (total + further) store =
        results ++ List.replicate further (.ok none) := by
  induction total generalizing store with
  | zero =>
    -- Nothing is pending, and asking leaves it so.
    refine ⟨[], rfl, nofun, ?_⟩
    intro further
    rw [Nat.zero_add, List.nil_append]
    induction further generalizing store with
    | zero => rfl
    | succ further ih =>
      obtain ⟨outcome, notices, last, ran, lastSound, nothing | answered⟩ :=
        next_pendingTotal store queue sound
      · rw [answers, ran, List.replicate_succ, nothing.1]
        exact congrArg _ (ih last lastSound nothing.2.2)
      · omega
  | succ total ih =>
    obtain ⟨outcome, notices, last, ran, lastSound, nothing | answered⟩ :=
      next_pendingTotal store queue sound
    · omega
    · obtain ⟨results, length, all, more⟩ := ih last lastSound (by omega)
      refine ⟨outcome :: results, ?_, ?_, ?_⟩
      · rw [List.length_cons, length]
      · intro result member
        rcases List.mem_cons.mp member with rfl | inside
        · exact answered.1
        · exact all result inside
      · intro further
        rw [Nat.add_right_comm, answers, ran, List.cons_append, ← more further]

end Engine

structure MemoryStore.Visible (store : MemoryStore) (queue : String) : Prop where
  registered : ∀ tenant, (store.queue queue).Waits tenant →
    ((store.queue queue).inFlight tenant).isSome
  sized : (Engine.size queue).run backend store = (.ok (store.queue queue).pendingTotal, [], store)
  exhausted : ((Engine.next queue).run backend store).1 = .ok none ↔
    (store.queue queue).pendingTotal = 0
  answered : ∃ results, results.length = (store.queue queue).pendingTotal ∧
    (∀ result ∈ results, Engine.Answered result) ∧
    ∀ further, Engine.answers queue ((store.queue queue).pendingTotal + further) store =
      results ++ List.replicate further (.ok none)
  named : ∀ member ∈ (store.queue queue).registry.members,
    ∃ tenant, Tenant.name tenant = member ∧ Tenant.ofName? member = some tenant
  distinct : (store.queue queue).registry.members.Nodup
  listed : ∃ entries, store.perform (.activeTenants queue) = (.ok entries, store) ∧
    (entries.map Prod.fst).Nodup ∧ ∀ tenant count, (tenant, count) ∈ entries ↔
      (store.queue queue).inFlight tenant = some count
  counted : ∀ tenant count, (store.queue queue).inFlight tenant = some count → 0 ≤ count
  replies : ∀ call, ∃ reply, (store.perform call).1 = .ok reply

/-- Whatever calls are made of an empty store, no pending record is hidden. -/
theorem MemoryStore.after_visible (calls : List Call) (queue : String) :
    (after calls).Visible queue := by
  have sound := after_sound calls
  exact {
    registered := (sound queue).registered
    sized := by
      have performed : backend.perform (.size queue) (after calls) =
          (.ok ((after calls).queue queue).pendingTotal, after calls) := by
        simp only [backend, perform_size _ queue sound, Outcome.ofExcept]
      rw [Engine.size, Program.run_perform, performed]
    exhausted := by
      obtain ⟨outcome, notices, last, ran, _, nothing | answered⟩ :=
        Engine.next_pendingTotal (after calls) queue sound
      · rw [ran, nothing.1]
        exact iff_of_true rfl nothing.2.1
      · rw [ran]
        refine iff_of_false ?_ (by omega)
        rintro rfl
        exact answered.1
    answered := Engine.answers_pendingTotal _ queue _ sound rfl
    named := by
      intro member listed
      obtain ⟨count, found⟩ := Option.isSome_iff_exists.mp
        ((ScoredSet.mem_members _ (sound queue).registryInStep member).mp listed)
      obtain ⟨tenant, rfl⟩ := (sound queue).named member count found
      exact ⟨tenant, rfl, Tenant.ofName?_name tenant⟩
    distinct := ScoredSet.members_nodup _ (sound queue).registryInStep
    listed := perform_activeTenants _ queue sound
    counted := (sound queue).counted
    replies := fun call => perform_ok _ call sound }

end TenantQueue
