import TenantQueue.Proofs.Queue.Calls

/-! The records kept for processing entries. Under a fingerprint there is what was written last, unless it
was deleted since; no call but writing and deleting a record changes that. -/
namespace TenantQueue

def Call.Passes : Call → Prop
  | addProcessing _ _ _ _ => False
  | removeProcessing _ _ _ => False
  | setPayload _ _ _ => False
  | deletePayload _ _ => False
  | _ => True

namespace QueueState

theorem after_passes (state : QueueState) (call : Call) (sound : state.Sound) (passes : call.Passes) :
    (state.after call).processing = state.processing ∧ (state.after call).payloads = state.payloads := by
  cases call with
  | push queue tenant record score => exact ⟨rfl, rfl⟩
  | pop queue =>
    unfold after
    rcases pop_cases state sound with ⟨popped, _⟩ | ⟨tenant, count, _, served | dismissed⟩
    · rw [popped]
      exact ⟨rfl, rfl⟩
    · obtain ⟨record, score, _, popped⟩ := served
      rw [popped]
      exact ⟨rfl, rfl⟩
    · rw [dismissed.2]
      exact ⟨rfl, rfl⟩
  | size queue => exact ⟨rfl, rfl⟩
  | release queue tenant => exact ⟨rfl, rfl⟩
  | activeTenants queue => exact ⟨rfl, rfl⟩
  | expiredProcessing queue tenant now => exact ⟨rfl, rfl⟩
  | getPayload queue fingerprint => exact ⟨rfl, rfl⟩
  | addProcessing queue tenant fingerprint deadline => exact passes.elim
  | removeProcessing queue tenant fingerprint => exact passes.elim
  | setPayload queue fingerprint record => exact passes.elim
  | deletePayload queue fingerprint => exact passes.elim

end QueueState

def Call.leaves? (queue : String) (fingerprint : Fingerprint) : Call → Option (Option Bytes)
  | setPayload name other record =>
    if name = queue ∧ other = fingerprint then some (some record) else none
  | deletePayload name other => if name = queue ∧ other = fingerprint then some none else none
  | _ => none

namespace MemoryStore

def kept (store : MemoryStore) (queue : String) (fingerprint : Fingerprint) : Option Bytes :=
  (store.queue queue).payloads.get? fingerprint

theorem kept_perform (store : MemoryStore) (call : Call) (queue : String) (fingerprint : Fingerprint)
    (sound : store.Sound) :
    (store.perform call).2.kept queue fingerprint =
      (call.leaves? queue fingerprint).getD (store.kept queue fingerprint) := by
  rw [kept, queue_perform, kept]
  split
  · rename_i own
    subst own
    have unwritten (passes : call.Passes) :
        ((store.queue call.queue).after call).payloads.get? fingerprint =
          (store.queue call.queue).payloads.get? fingerprint := by
      rw [(QueueState.after_passes _ call (sound _) passes).2]
    cases call with
    | setPayload name other record =>
      simp only [QueueState.after, Table.get?_set, Call.leaves?, Call.queue, true_and]
      split <;> rfl
    | deletePayload name other =>
      simp only [QueueState.after, Table.get?_erase, Call.leaves?, Call.queue, true_and]
      split <;> rfl
    | addProcessing name tenant other deadline => rfl
    | removeProcessing name tenant other => rfl
    | _ => exact unwritten trivial
  · rename_i elsewhere
    cases call with
    | setPayload name other record =>
      rw [Call.leaves?, if_neg fun own => elsewhere own.1, Option.getD_none]
    | deletePayload name other =>
      rw [Call.leaves?, if_neg fun own => elsewhere own.1, Option.getD_none]
    | _ => rfl

theorem kept_performAll (store : MemoryStore) (calls : List Call) (queue : String)
    (fingerprint : Fingerprint) (sound : store.Sound) :
    (store.performAll calls).kept queue fingerprint =
      ((calls.filterMap (Call.leaves? queue fingerprint)).getLast?).getD
        (store.kept queue fingerprint) := by
  induction calls generalizing store with
  | nil => rfl
  | cons call rest ih =>
    rw [performAll, ih _ (perform_sound store call sound),
      kept_perform store call queue fingerprint sound]
    cases left : call.leaves? queue fingerprint with
    | none => rw [List.filterMap_cons_none left, Option.getD_none]
    | some record? =>
      rw [List.filterMap_cons_some left, List.getLast?_cons, Option.getD_some, Option.getD_some]

end MemoryStore

end TenantQueue
