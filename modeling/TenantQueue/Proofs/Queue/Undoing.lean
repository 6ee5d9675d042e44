import TenantQueue.Proofs.Queue.Delivery
import TenantQueue.Proofs.Queue.Kept

/-! What can be taken back. No tenant has an empty set of processing entries, so that an entry that was
not there is taken out again with the set that was made for it. -/
namespace TenantQueue

namespace ScoredSet
variable {σ μ : Type} [DecidableEq μ]

theorem isEmpty_eq_false {set : ScoredSet σ μ} {member : μ} {score : σ}
    (found : set.score? member = some score) : set.isEmpty = false := by
  refine Bool.eq_false_iff.mpr fun none_left => ?_
  have absent := (isEmpty_iff set).mp none_left member
  rw [found] at absent
  contradiction

end ScoredSet

namespace QueueState

/-- No tenant has a set of processing entries without an entry. -/
def Trim (state : QueueState) : Prop :=
  ∀ tenant entries, state.processing.get? tenant = some entries → entries.isEmpty = false

theorem empty_trim : empty.Trim := by
  intro tenant entries found
  rw [empty, Table.get?_empty] at found
  contradiction

theorem addProcessing_trim (state : QueueState) (tenant : Tenant) (fingerprint : Fingerprint)
    (deadline : Double) (trim : state.Trim) :
    (state.addProcessing tenant fingerprint deadline).2.Trim := by
  intro other entries found
  rw [addProcessing, Table.get?_set] at found
  split at found
  · obtain rfl := Option.some.inj found
    have entered := ScoredSet.score?_insertIfNew (state.processingOf tenant) fingerprint fingerprint deadline
    rw [if_pos rfl] at entered
    exact ScoredSet.isEmpty_eq_false entered
  · exact trim other entries found

theorem removeProcessing_trim (state : QueueState) (tenant : Tenant) (fingerprint : Fingerprint)
    (trim : state.Trim) : (state.removeProcessing tenant fingerprint).Trim := by
  intro other entries found
  rw [removeProcessing, keepNonempty] at found
  split at found
  · rw [Table.get?_erase] at found
    split at found
    · contradiction
    · exact trim other entries found
  · rename_i kept
    rw [Table.get?_set] at found
    split at found
    · obtain rfl := Option.some.inj found
      exact Bool.eq_false_iff.mpr kept
    · exact trim other entries found

theorem after_trim (state : QueueState) (call : Call) (sound : state.Sound) (trim : state.Trim) :
    (state.after call).Trim := by
  have unchanged (passes : call.Passes) : (state.after call).Trim := by
    rw [Trim, (after_passes state call sound passes).1]
    exact trim
  cases call with
  | addProcessing queue tenant fingerprint deadline =>
    exact addProcessing_trim state tenant fingerprint deadline trim
  | removeProcessing queue tenant fingerprint =>
    exact removeProcessing_trim state tenant fingerprint trim
  | setPayload queue fingerprint record => exact trim
  | deletePayload queue fingerprint => exact trim
  | _ => exact unchanged trivial

theorem addProcessing_of_present (state : QueueState) (tenant : Tenant) (fingerprint : Fingerprint)
    (deadline old : Double) (present : (state.processingOf tenant).score? fingerprint = some old) :
    state.addProcessing tenant fingerprint deadline = (false, state) := by
  have kept : (state.processingOf tenant).insertIfNew fingerprint deadline =
      (false, state.processingOf tenant) := by
    rw [ScoredSet.insertIfNew, present]
    rfl
  have stored : state.processing.get? tenant = some (state.processingOf tenant) := by
    cases found : state.processing.get? tenant with
    | none =>
      rw [processingOf, found] at present
      contradiction
    | some entries => rw [processingOf, found, Option.getD_some]
  simp only [addProcessing, kept]
  rw [Table.set_same _ _ _ stored]

theorem addProcessing_of_absent (state : QueueState) (tenant : Tenant) (fingerprint : Fingerprint)
    (deadline : Double) (absent : (state.processingOf tenant).score? fingerprint = none) :
    state.addProcessing tenant fingerprint deadline =
      (true, { state with
        processing :=
          state.processing.set tenant ((state.processingOf tenant).insert fingerprint deadline) }) := by
  have entered : (state.processingOf tenant).insertIfNew fingerprint deadline =
      (true, (state.processingOf tenant).insert fingerprint deadline) := by
    rw [ScoredSet.insertIfNew, absent]
    rfl
  simp only [addProcessing, entered]

theorem keepNonempty_set (state : QueueState) (tenant : Tenant) (entries : ScoredSet Double Fingerprint)
    (trim : state.Trim) :
    keepNonempty (state.processing.set tenant entries) tenant (state.processingOf tenant) =
      state.processing := by
  cases found : state.processing.get? tenant with
  | none =>
    -- The set was made for the entry, and goes with it.
    have none_left : (state.processingOf tenant).isEmpty = true := by
      rw [processingOf, found]
      rfl
    rw [keepNonempty, if_pos none_left, Table.erase_set _ _ _ found]
  | some old =>
    -- An empty set in this place would not be put back, but there is none.
    have own : state.processingOf tenant = old := by rw [processingOf, found, Option.getD_some]
    rw [own, keepNonempty, if_neg (Bool.eq_false_iff.mp (trim tenant old found)), Table.set_set,
      Table.set_same _ _ _ found]

theorem removeProcessing_addProcessing (state : QueueState) (tenant : Tenant)
    (fingerprint : Fingerprint) (deadline : Double) (sound : state.Sound) (trim : state.Trim)
    (absent : (state.processingOf tenant).score? fingerprint = none) :
    (state.addProcessing tenant fingerprint deadline).2.removeProcessing tenant fingerprint = state := by
  have inserted : (state.addProcessing tenant fingerprint deadline).2.processingOf tenant =
      (state.processingOf tenant).insert fingerprint deadline := by
    rw [processingOf_addProcessing, if_pos rfl, ScoredSet.insertIfNew, absent]
    rfl
  rw [removeProcessing, inserted, ScoredSet.erase_insert _ _ _ (sound.processingInStep tenant) absent,
    addProcessing_of_absent state tenant fingerprint deadline absent]
  dsimp only
  rw [keepNonempty_set state tenant _ trim]

theorem dropEntry_beginEntry (state : QueueState) (tenant : Tenant) (task : Task) (deadline : Double)
    (sound : state.Sound) (trim : state.Trim)
    (absent : (state.processingOf tenant).score? task.fingerprint = none)
    (unkept : state.payloads.get? task.fingerprint = none) :
    (state.beginEntry tenant task deadline).dropEntry tenant task.fingerprint = state := by
  have removed := removeProcessing_addProcessing state tenant task.fingerprint deadline sound trim absent
  have erased := Table.erase_set state.payloads task.fingerprint task.encode unkept
  change
    { (state.addProcessing tenant task.fingerprint deadline).2.removeProcessing tenant task.fingerprint with
      payloads := (state.payloads.set task.fingerprint task.encode).erase task.fingerprint } = state
  rw [removed, erased]

end QueueState

namespace MemoryStore

def Trim (store : MemoryStore) : Prop := ∀ name, (store.queue name).Trim

theorem perform_trim (store : MemoryStore) (call : Call) (sound : store.Sound) (trim : store.Trim) :
    (store.perform call).2.Trim := by
  intro name
  rw [queue_perform]
  split
  · exact QueueState.after_trim _ call (sound call.queue) (trim call.queue)
  · exact trim name

theorem performAll_trim (store : MemoryStore) (calls : List Call) (sound : store.Sound)
    (trim : store.Trim) : (store.performAll calls).Trim := by
  induction calls generalizing store with
  | nil => exact trim
  | cons call rest ih => exact ih _ (perform_sound store call sound) (perform_trim store call sound trim)

theorem after_trim (calls : List Call) : (after calls).Trim :=
  performAll_trim empty calls (fun _ => QueueState.empty_sound) fun _ => QueueState.empty_trim

end MemoryStore
end TenantQueue
