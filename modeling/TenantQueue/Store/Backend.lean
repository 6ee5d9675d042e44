import TenantQueue.Store.Memory
import TenantQueue.Store.Outcome

/-! What a program needs of a store: an outcome for every call, and a bound on how often in a
row a pop can meet a drained tenant. The store in memory is one, and so is any store with
disruptions put in front of it. -/
namespace TenantQueue

structure Backend (σ : Type) where
  perform : (call : Call) → σ → Outcome call.Reply × σ
  /-- Each pop that meets a drained tenant lowers it. -/
  patience : String → σ → Nat
  patience_lt : ∀ queue state tenant next,
    perform (.pop queue) state = (.ok (.drained tenant), next) →
      patience queue next < patience queue state

theorem QueueState.pop_drained {state next : QueueState} {tenant : Tenant}
    (drained : state.pop = .ok (.drained tenant, next)) :
    next.registry.ordered.length + 1 = state.registry.ordered.length := by
  unfold QueueState.pop at drained
  split at drained
  · simp at drained
  · rename_i member others first
    unfold ScoredSet.popFirst? at first
    split at first
    · simp at first
    · rename_i ordered
      simp only [Option.some.injEq, Prod.mk.injEq] at first
      obtain ⟨_, rfl⟩ := first
      cases known : QueueState.registered member with
      | error failure => simp [known, bind, Except.bind] at drained
      | ok named =>
        simp only [known, bind, Except.bind, pure, Except.pure, Except.ok.injEq,
          QueueState.popFrom] at drained
        split at drained
        · simp at drained
        · simp only [Prod.mk.injEq] at drained
          obtain ⟨_, rfl⟩ := drained
          simp [ordered]

theorem MemoryStore.queue_setQueue (store : MemoryStore) (name : String) (state : QueueState) :
    (store.setQueue name state).queue name = state := by
  simp [MemoryStore.queue, MemoryStore.setQueue]

def MemoryStore.backend : Backend MemoryStore where
  perform call store := (Outcome.ofExcept (store.perform call).1, (store.perform call).2)
  patience queue store := (store.queue queue).registry.ordered.length
  patience_lt queue store tenant next := by
    intro performed
    simp only [MemoryStore.perform, Prod.mk.injEq] at performed
    split at performed
    · simp [Outcome.ofExcept] at performed
    · rename_i outcome state _ popped
      simp only [Outcome.ofExcept, Outcome.ok.injEq] at performed
      obtain ⟨rfl, rfl⟩ := performed
      have shorter := QueueState.pop_drained popped
      rw [MemoryStore.queue_setQueue]
      omega
    · simp [Outcome.ofExcept] at performed

/-- What may befall a call in place of its effect. -/
inductive Disruption where
  | failure
  | crash
  deriving DecidableEq

/-- Decides for each kind of call, and the number of earlier calls of that kind, what befalls it. -/
abbrev Disruptions := Call.Kind → Nat → Option Disruption

structure Disrupted (σ : Type) where
  store : σ
  calls : Table Call.Kind Nat

namespace Disrupted
variable {σ : Type}

def ofStore (store : σ) : Disrupted σ := ⟨store, Table.empty⟩

def made (state : Disrupted σ) (kind : Call.Kind) : Nat := (state.calls.get? kind).getD 0

/-- Counts the call; a disrupted one has no effect. -/
def perform (backend : Backend σ) (disruptions : Disruptions) (call : Call)
    (state : Disrupted σ) : Outcome call.Reply × Disrupted σ :=
  let earlier := state.made call.kind
  let calls := state.calls.set call.kind (earlier + 1)
  match disruptions call.kind earlier with
  | some .failure => (.failed (.store ("injected " ++ call.kind.name)), ⟨state.store, calls⟩)
  | some .crash => (.crashed (.disrupted call.kind), ⟨state.store, calls⟩)
  | none =>
    let (outcome, store) := backend.perform call state.store
    (outcome, ⟨store, calls⟩)

def backend (inner : Backend σ) (disruptions : Disruptions) : Backend (Disrupted σ) where
  perform := perform inner disruptions
  patience queue state := inner.patience queue state.store
  patience_lt queue state tenant next := by
    intro performed
    simp only [perform] at performed
    split at performed
    · simp at performed
    · simp at performed
    · simp only [Prod.mk.injEq] at performed
      obtain ⟨drained, rfl⟩ := performed
      exact inner.patience_lt queue state.store tenant _ (Prod.ext drained rfl)

end Disrupted

/-- A stretch of calls of one kind that are disrupted: after so many, so many. -/
structure Fault where
  kind : Call.Kind
  skipped : Nat
  count : Nat
  crashes : Bool
  deriving DecidableEq

def Fault.disruptions (faults : List Fault) : Disruptions := fun kind earlier =>
  (faults.find? fun fault =>
    fault.kind = kind && fault.skipped ≤ earlier && earlier < fault.skipped + fault.count).map
    fun fault => if fault.crashes then .crash else .failure

end TenantQueue
