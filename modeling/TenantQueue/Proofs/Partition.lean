import TenantQueue.Proofs.Disruption
import TenantQueue.Proofs.Queue.Calls

/-! A store that falls apart into one part for each queue: a call reads and changes the part of its
own queue only. A program that calls about one queue ends alike on any two stores that agree on this
part. -/
namespace TenantQueue

structure Backend.Partitions {σ π : Type} (backend : Backend σ) (part : String → σ → π) : Prop where
  own : ∀ call first second, part call.queue first = part call.queue second →
    (backend.perform call first).1 = (backend.perform call second).1 ∧
      part call.queue (backend.perform call first).2 =
        part call.queue (backend.perform call second).2
  apart : ∀ call state queue, call.queue ≠ queue →
    part queue (backend.perform call state).2 = part queue state

namespace Program
variable {α σ π : Type}

def outcomeOn (backend : Backend σ) (program : Program α) (state : σ) : Outcome α :=
  (program.run backend state).1

def lastOn (backend : Backend σ) (program : Program α) (state : σ) : σ :=
  (program.run backend state).2.2

theorem ends_iff {backend : Backend σ} {program : Program α} {state last : σ} {outcome : Outcome α} :
    program.Ends backend state outcome last ↔
      program.outcomeOn backend state = outcome ∧ program.lastOn backend state = last := by
  constructor
  · rintro ⟨notices, ran⟩
    rw [outcomeOn, lastOn, ran]
    exact ⟨rfl, rfl⟩
  · rintro ⟨rfl, rfl⟩
    exact ⟨_, rfl⟩

theorem ends_on (backend : Backend σ) (program : Program α) (state : σ) :
    program.Ends backend state (program.outcomeOn backend state) (program.lastOn backend state) :=
  ends_iff.mpr ⟨rfl, rfl⟩

section
variable {backend : Backend σ} {part : String → σ → π} {queue : String} {program : Program α}

private theorem perform_alike (partitions : backend.Partitions part) (call : Call) {first second : σ}
    (alike : part call.queue first = part call.queue second) :
    ∃ outcome next nextToo, backend.perform call first = (outcome, next) ∧
      backend.perform call second = (outcome, nextToo) ∧
      part call.queue next = part call.queue nextToo := by
  obtain ⟨same, alikeNext⟩ := partitions.own call first second alike
  exact ⟨(backend.perform call first).1, (backend.perform call first).2,
    (backend.perform call second).2, rfl, Prod.ext same.symm rfl, alikeNext⟩

private theorem popUntil_alike (partitions : backend.Partitions part) (first second : σ)
    (alike : part queue first = part queue second) :
    ∃ outcome notices next nextToo, popUntil backend queue first = (outcome, notices, next) ∧
      popUntil backend queue second = (outcome, notices, nextToo) ∧
      part queue next = part queue nextToo := by
  induction first using popInduction backend queue generalizing second with
  | step first ih =>
    obtain ⟨outcome, next, nextToo, performed, performedToo, alikeNext⟩ :=
      perform_alike partitions (.pop queue) alike
    rw [popUntil_eq backend queue first, popUntil_eq backend queue second]
    simp only [performed, performedToo]
    cases outcome with
    | failed failure => exact ⟨_, _, _, _, rfl, rfl, alikeNext⟩
    | crashed crash => exact ⟨_, _, _, _, rfl, rfl, alikeNext⟩
    | ok reply =>
      cases reply with
      | empty => exact ⟨_, _, _, _, rfl, rfl, alikeNext⟩
      | popped tenant record => exact ⟨_, _, _, _, rfl, rfl, alikeNext⟩
      | drained tenant =>
        obtain ⟨outcome, notices, last, lastToo, popped, poppedToo, alikeLast⟩ :=
          ih tenant next performed nextToo alikeNext
        simp only [popped, poppedToo]
        exact ⟨_, _, _, _, rfl, rfl, alikeLast⟩

theorem run_alike (partitions : backend.Partitions part) (first second : σ)
    (makes : program.Makes fun call => call.queue = queue)
    (alike : part queue first = part queue second) :
    program.outcomeOn backend first = program.outcomeOn backend second ∧
      part queue (program.lastOn backend first) = part queue (program.lastOn backend second) := by
  unfold outcomeOn lastOn
  induction program generalizing first second with
  | done value => exact ⟨rfl, alike⟩
  | failed failure => exact ⟨rfl, alike⟩
  | crashed crash => exact ⟨rfl, alike⟩
  | note notice rest ih => exact ih first second makes alike
  | call request after ih =>
    obtain ⟨rfl, makes⟩ := makes
    obtain ⟨outcome, next, nextToo, performed, performedToo, alikeNext⟩ :=
      perform_alike partitions request alike
    simp only [run, performed, performedToo]
    cases outcome with
    | ok reply => exact ih (.ok reply) next nextToo (makes _) alikeNext
    | failed failure => exact ih (.error failure) next nextToo (makes _) alikeNext
    | crashed crash => exact ⟨rfl, alikeNext⟩
  | serve served after ih =>
    obtain ⟨rfl, makes⟩ := makes
    obtain ⟨outcome, notices, next, nextToo, popped, poppedToo, alikeNext⟩ :=
      popUntil_alike partitions first second alike
    simp only [Call.queue] at popped poppedToo
    simp only [run, popped, poppedToo]
    cases outcome with
    | ok found => exact ih (.ok found) next nextToo (makes _) alikeNext
    | failed failure => exact ih (.error failure) next nextToo (makes _) alikeNext
    | crashed crash => exact ⟨rfl, alikeNext⟩

theorem run_apart (partitions : backend.Partitions part) (state : σ)
    (makes : program.Makes fun call => call.queue = queue) {other : String} (differ : queue ≠ other) :
    part other (program.lastOn backend state) = part other state := by
  refine run_keeps_of_makes backend (fun last => part other last = part other state) ?_ program state
    makes rfl
  rintro call middle rfl same
  rw [partitions.apart call middle other differ, same]

end
end Program

namespace MemoryStore

private theorem reply_alike (first second : MemoryStore) (call : Call)
    (alike : first.queue call.queue = second.queue call.queue) :
    (first.perform call).1 = (second.perform call).1 := by
  cases call with
  | pop queue =>
    simp only [Call.queue] at alike
    simp only [perform, alike]
    split <;> rfl
  | push queue tenant record score => rfl
  | release queue tenant => rfl
  | removeProcessing queue tenant fingerprint => rfl
  | setPayload queue fingerprint record => rfl
  | deletePayload queue fingerprint => rfl
  | size queue => exact congrArg QueueState.size alike
  | activeTenants queue => exact congrArg QueueState.activeTenants alike
  | addProcessing queue tenant fingerprint deadline =>
    exact congrArg (fun state => Except.ok (state.addProcessing tenant fingerprint deadline).1) alike
  | expiredProcessing queue tenant now =>
    exact congrArg (fun state => Except.ok (state.expiredProcessing tenant now)) alike
  | getPayload queue fingerprint =>
    exact congrArg (fun state => Except.ok (state.payloads.get? fingerprint)) alike

theorem backend_partitions : backend.Partitions fun name store => store.queue name where
  own call first second alike := by
    refine ⟨congrArg Outcome.ofExcept (reply_alike first second call alike), ?_⟩
    change (first.perform call).2.queue call.queue = (second.perform call).2.queue call.queue
    rw [queue_perform, queue_perform, if_pos rfl, if_pos rfl, alike]
  apart call store name differ := by
    change (store.perform call).2.queue name = store.queue name
    rw [queue_perform, if_neg differ]

end MemoryStore

/-- Decides from a call, and the earlier calls about the same queue, whether it is refused. -/
abbrev Refusals := List Call → Call → Option Failure

structure Faltering (σ : Type) where
  store : σ
  made : List Call

namespace Faltering
variable {σ π : Type}

def madeAbout (state : Faltering σ) (queue : String) : List Call :=
  state.made.filter fun call => call.queue = queue

def perform (inner : Backend σ) (refusals : Refusals) (call : Call) (state : Faltering σ) :
    Outcome call.Reply × Faltering σ :=
  match refusals (state.madeAbout call.queue) call with
  | some failure => (.failed failure, ⟨state.store, call :: state.made⟩)
  | none =>
    ((inner.perform call state.store).1, ⟨(inner.perform call state.store).2, call :: state.made⟩)

def backend (inner : Backend σ) (refusals : Refusals) : Backend (Faltering σ) where
  perform := perform inner refusals
  patience queue state := inner.patience queue state.store
  patience_lt queue state tenant next := by
    intro performed
    simp only [perform] at performed
    split at performed
    · simp at performed
    · simp only [Prod.mk.injEq] at performed
      obtain ⟨drained, rfl⟩ := performed
      exact inner.patience_lt queue state.store tenant _ (Prod.ext drained rfl)

theorem backend_partitions {inner : Backend σ} {part : String → σ → π}
    (partitions : inner.Partitions part) (refusals : Refusals) :
    (backend inner refusals).Partitions fun queue state =>
      (part queue state.store, state.madeAbout queue) where
  own call first second alike := by
    obtain ⟨stores, made⟩ := Prod.mk.inj alike
    obtain ⟨same, alikeNext⟩ := partitions.own call first.store second.store stores
    simp only [backend, perform, made]
    cases refusals (second.madeAbout call.queue) call with
    | some failure => exact ⟨rfl, Prod.ext stores (by simpa [madeAbout] using made)⟩
    | none => exact ⟨same, Prod.ext alikeNext (by simpa [madeAbout] using made)⟩
  apart call state queue differ := by
    have madeKept (store : σ) : (⟨store, call :: state.made⟩ : Faltering σ).madeAbout queue =
        state.madeAbout queue := by
      simp [madeAbout, differ]
    simp only [backend, perform]
    cases refusals (state.madeAbout call.queue) call with
    | some failure => exact Prod.ext rfl (madeKept state.store)
    | none =>
      exact Prod.ext (partitions.apart call state.store queue differ)
        (madeKept (inner.perform call state.store).2)

theorem backend_steady {inner : Backend σ} (steady : inner.Steady) (refusals : Refusals) :
    (backend inner refusals).Steady := by
  intro call state crash crashed
  simp only [backend, perform] at crashed
  cases refused : refusals (state.madeAbout call.queue) call with
  | some failure => simp [refused] at crashed
  | none =>
    simp only [refused] at crashed
    exact steady call state.store crash crashed

end Faltering
end TenantQueue
