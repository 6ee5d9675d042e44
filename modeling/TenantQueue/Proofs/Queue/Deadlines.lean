import TenantQueue.Proofs.Double
import TenantQueue.Proofs.Queue.Calls

/-! Which processing entries a store shows as expired: all whose deadlines have come, if each deadline
is a number or comes after all numbers. A call that enters only such deadlines keeps them so. -/
namespace TenantQueue

namespace QueueState

def Timely (state : QueueState) : Prop :=
  ∀ tenant fingerprint deadline,
    (state.processingOf tenant).score? fingerprint = some deadline → deadline.Timely

theorem empty_timely : empty.Timely := by
  intro tenant fingerprint deadline found
  simp [processingOf, empty] at found

def IsDue (state : QueueState) (tenant : Tenant) (fingerprint : Fingerprint) (now : Double) : Prop :=
  ∃ deadline, (state.processingOf tenant).score? fingerprint = some deadline ∧
    deadline.le now = true

theorem mem_expiredProcessing (state : QueueState) (tenant : Tenant) (fingerprint : Fingerprint)
    (now : Double) (sound : state.Sound) (timely : state.Timely) :
    fingerprint ∈ state.expiredProcessing tenant now ↔ state.IsDue tenant fingerprint now := by
  apply ScoredSet.mem_takeWhile _ _ _ (sound.processingInStep tenant)
  intro firstScore first secondScore second found _ order due
  exact Double.le_of_rank_le (timely tenant first firstScore found)
    (ScoredSet.rank_le_of_precedence order) due

theorem expiredProcessing_nodup (state : QueueState) (tenant : Tenant) (now : Double)
    (sound : state.Sound) : (state.expiredProcessing tenant now).Nodup :=
  ScoredSet.takeWhile_nodup _ _ (sound.processingInStep tenant)

end QueueState

def Call.Timely : Call → Prop
  | addProcessing _ _ _ deadline => deadline.Timely
  | _ => True

namespace QueueState

theorem Timely.of_processing {state next : QueueState} (timely : state.Timely)
    (same : next.processing = state.processing) : next.Timely := by
  intro tenant fingerprint deadline found
  rw [processingOf, same] at found
  exact timely tenant fingerprint deadline found

theorem after_timely (state : QueueState) (call : Call) (sound : state.Sound)
    (timely : state.Timely) (allowed : call.Timely) : (state.after call).Timely := by
  cases call with
  | addProcessing queue tenant fingerprint deadline =>
    intro other entry otherDeadline found
    rw [after, processingOf_addProcessing] at found
    split at found
    · rw [ScoredSet.score?_insertIfNew] at found
      split at found
      · cases present : (state.processingOf tenant).score? fingerprint with
        | none =>
          rw [present, Option.getD_none, Option.some.injEq] at found
          exact found ▸ allowed
        | some kept =>
          rw [present, Option.getD_some, Option.some.injEq] at found
          exact found ▸ timely tenant fingerprint kept present
      · exact timely tenant entry otherDeadline found
    · exact timely other entry otherDeadline found
  | removeProcessing queue tenant fingerprint =>
    intro other entry otherDeadline found
    rw [after, processingOf_removeProcessing state tenant other fingerprint sound] at found
    split at found
    · rw [ScoredSet.score?_erase] at found
      split at found
      · contradiction
      · exact timely tenant entry otherDeadline found
    · exact timely other entry otherDeadline found
  | pop queue =>
    unfold after
    rcases pop_cases state sound with ⟨popped, _⟩ | ⟨tenant, count, _, served | dismissed⟩
    · rw [popped]
      exact timely
    · obtain ⟨record, score, _, popped⟩ := served
      rw [popped]
      exact timely.of_processing rfl
    · rw [dismissed.2]
      exact timely.of_processing rfl
  | push queue tenant record score => exact timely.of_processing rfl
  | release queue tenant => exact timely.of_processing rfl
  | setPayload queue fingerprint record => exact timely.of_processing rfl
  | deletePayload queue fingerprint => exact timely.of_processing rfl
  | size queue => exact timely
  | activeTenants queue => exact timely
  | expiredProcessing queue tenant now => exact timely
  | getPayload queue fingerprint => exact timely

end QueueState

namespace MemoryStore

def Timely (store : MemoryStore) : Prop := ∀ name, (store.queue name).Timely

theorem perform_timely (store : MemoryStore) (call : Call) (sound : store.Sound)
    (timely : store.Timely) (allowed : call.Timely) : (store.perform call).2.Timely := by
  intro name
  rw [queue_perform]
  split
  · exact QueueState.after_timely _ call (sound call.queue) (timely call.queue) allowed
  · exact timely name

end MemoryStore
end TenantQueue
