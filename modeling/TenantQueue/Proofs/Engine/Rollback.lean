import TenantQueue.Proofs.Engine.Interruption
import TenantQueue.Proofs.Engine.Sweep
import TenantQueue.Proofs.Queue.Undoing

/-! The beginning of a task is all or nothing, whichever of its calls are disrupted. Of two writes the
second may fail; then an entry that is new is taken back, and one that was there before is left alone. -/
namespace TenantQueue

namespace Disrupted
open Program
variable {α β σ : Type} {inner : Backend σ} {disruptions : Disruptions} {state last : Disrupted σ}

theorem made_counted_other (state : Disrupted σ) (call : Call) (store : σ) {kind : Call.Kind}
    (differ : call.kind ≠ kind) : (state.counted call store).made kind = state.made kind := by
  rw [made_counted, if_neg differ]

theorem ends_perform_spared {call : Call} {reply : call.Reply} {store : σ}
    (spared : disruptions call.kind (state.made call.kind) = none)
    (performed : inner.perform call state.store = (.ok reply, store)) :
    (Program.perform call).Ends (backend inner disruptions) state (.ok reply)
      (state.counted call store) :=
  ends_perform call (perform_spared spared performed)

theorem ends_perform_disrupted (inner : Backend σ) {call : Call} {disruption : Disruption}
    (befalls : disruptions call.kind (state.made call.kind) = some disruption) :
    (Program.perform call).Ends (backend inner disruptions) state (disruption.outcome call.kind)
      (state.counted call state.store) :=
  ends_perform call (perform_disrupted inner befalls)

theorem ends_bind_disrupted {program : Program α} {next : α → Program β} {kind : Call.Kind}
    {disruption : Disruption}
    (first : program.Ends (backend inner disruptions) state (disruption.outcome kind) last) :
    (program >>= next).Ends (backend inner disruptions) state (disruption.outcome kind) last := by
  cases disruption with
  | failure => exact first.bind_failed
  | crash => exact first.bind_crashed

theorem disruption_fails (disruption : Disruption) (kind : Call.Kind) (value : α) :
    disruption.outcome kind ≠ .ok value := by
  cases disruption <;> exact nofun

end Disrupted

theorem MemoryStore.Becomes.unchanged {store last : MemoryStore} {queue : String}
    (becomes : store.Becomes last queue (store.queue queue)) (name : String) :
    last.queue name = store.queue name :=
  (becomes name).trans (store.becomes_self queue name).symm

namespace Engine
open Program Disrupted

/-- A disrupted call to take an entry back is noted, or breaks off what is under way. -/
theorem ends_rollBack (disruptions : Disruptions) (state : Disrupted MemoryStore) (queue : String)
    (tenant : Tenant) (fingerprint : Fingerprint) :
    ∃ outcome last, (rollBack queue tenant fingerprint).Ends
        (backend MemoryStore.backend disruptions) state outcome last ∧
      (∀ failure, outcome ≠ .failed failure) ∧
      state.Made last .removeProcessing (state.made .removeProcessing) ∧
      (disruptions .removeProcessing (state.made .removeProcessing) = none →
        outcome = .ok () ∧ state.store.Becomes last.store queue
          ((state.store.queue queue).removeProcessing tenant fingerprint)) := by
  let call : Call := .removeProcessing queue tenant fingerprint
  have made (store : MemoryStore) := state.made_of_counted call store
  cases befalls : disruptions .removeProcessing (state.made .removeProcessing) with
  | none =>
    have removes : (Program.perform call).Ends (backend MemoryStore.backend disruptions) state (.ok ()) _ :=
      ends_perform_spared befalls rfl
    refine ⟨_, _, removes.attempt.bind_ok (ends_done ()), nofun, made _, fun _ => ⟨rfl, ?_⟩⟩
    exact state.store.becomes_perform call
  | some disruption =>
    have removes : (Program.perform call).Ends (backend MemoryStore.backend disruptions) state
        (disruption.outcome call.kind) _ := ends_perform_disrupted MemoryStore.backend befalls
    cases disruption with
    | failure =>
      exact ⟨_, _, removes.attempt.bind_ok (ends_note _ (ends_done ())), nofun, made _, nofun⟩
    | crash => exact ⟨_, _, removes.attempt.bind_crashed, nofun, made _, nofun⟩

section
variable (disruptions : Disruptions) (start : Disrupted MemoryStore) (queue : String) (tenant : Tenant)
  (task : Task) (deadline : Double)

/-- How the beginning of a task can end on a store whose calls may be disrupted. -/
inductive Begins : Outcome Fingerprint → Disrupted MemoryStore → Prop
  | begun {last : Disrupted MemoryStore}
    (becomes : start.store.Becomes last.store queue
      ((start.store.queue queue).beginEntry tenant task deadline)) :
    Begins (.ok task.fingerprint) last
  | refused {last : Disrupted MemoryStore} {disruption : Disruption}
    (befalls : disruptions .addProcessing (start.made .addProcessing) = some disruption)
    (same : last.store = start.store) :
    Begins (disruption.outcome .addProcessing) last
  | unkept {last : Disrupted MemoryStore} {disruption : Disruption}
    (befalls : disruptions .setPayload (start.made .setPayload) = some disruption)
    (same : ∀ name, last.store.queue name = start.store.queue name) :
    Begins (disruption.outcome .setPayload) last
  | takenBack {last : Disrupted MemoryStore} {outcome : Outcome Fingerprint}
    (fails : ∀ fingerprint, outcome ≠ .ok fingerprint)
    (befalls : disruptions .setPayload (start.made .setPayload) = some .failure)
    (made : start.Made last .removeProcessing (start.made .removeProcessing))
    (undone : disruptions .removeProcessing (start.made .removeProcessing) = none →
      ∀ name, last.store.queue name = start.store.queue name) :
    Begins outcome last
  | brokenOff {last : Disrupted MemoryStore}
    (befalls : disruptions .setPayload (start.made .setPayload) = some .crash) :
    Begins (.crashed (.disrupted .setPayload)) last

end

def entered (start : Disrupted MemoryStore) (queue : String) (tenant : Tenant) (task : Task)
    (deadline : Double) : Disrupted MemoryStore :=
  start.counted (.addProcessing queue tenant task.fingerprint deadline)
    (start.store.perform (.addProcessing queue tenant task.fingerprint deadline)).2

section
variable {disruptions : Disruptions} {start : Disrupted MemoryStore}

theorem becomes_entered (start : Disrupted MemoryStore) (queue : String) (tenant : Tenant) (task : Task)
    (deadline : Double) :
    start.store.Becomes (entered start queue tenant task deadline).store queue
      ((start.store.queue queue).addProcessing tenant task.fingerprint deadline).2 :=
  start.store.becomes_perform (.addProcessing queue tenant task.fingerprint deadline)

theorem made_entered (start : Disrupted MemoryStore) (queue : String) (tenant : Tenant) (task : Task)
    (deadline : Double) {kind : Call.Kind} (differ : Call.Kind.addProcessing ≠ kind) :
    (entered start queue tenant task deadline).made kind = start.made kind :=
  start.made_counted_other (.addProcessing queue tenant task.fingerprint deadline) _ differ

theorem ends_entered (queue : String) (tenant : Tenant) (task : Task) (deadline : Double)
    (adds : disruptions .addProcessing (start.made .addProcessing) = none) :
    (Program.perform (.addProcessing queue tenant task.fingerprint deadline)).Ends
      (backend MemoryStore.backend disruptions) start
      (.ok ((start.store.queue queue).addProcessing tenant task.fingerprint deadline).1)
      (entered start queue tenant task deadline) :=
  ends_perform_spared adds rfl

theorem ends_begun (queue : String) (tenant : Tenant) (task : Task) (span : Duration) (now : Instant)
    (adds : disruptions .addProcessing (start.made .addProcessing) = none)
    (keeps : disruptions .setPayload (start.made .setPayload) = none) :
    ∃ last, (beginProcessing queue tenant task span now).Ends
        (backend MemoryStore.backend disruptions) start (.ok task.fingerprint) last ∧
      start.store.Becomes last.store queue
        ((start.store.queue queue).beginEntry tenant task (now.epochSeconds.add span.seconds)) := by
  let deadline := now.epochSeconds.add span.seconds
  let keep : Call := .setPayload queue task.fingerprint task.encode
  let middle := entered start queue tenant task deadline
  have once := becomes_entered start queue tenant task deadline
  have twice := middle.store.becomes_perform keep
  simp only [Call.queue, keep, middle, once.queue] at twice
  have made := made_entered start queue tenant task deadline (show _ ≠ Call.Kind.setPayload by decide)
  have kept : (Program.perform keep).Ends (backend MemoryStore.backend disruptions) middle (.ok ()) _ :=
    ends_perform_spared ((congrArg (disruptions .setPayload) made).trans keeps) rfl
  exact ⟨_, (ends_entered queue tenant task deadline adds).bind_ok (kept.attempt.bind_ok
    ((ends_note _ (ends_done ())).bind_ok (ends_done _))), once.trans twice⟩

theorem ends_setPayload_disrupted (queue : String) (tenant : Tenant) (task : Task) (deadline : Double)
    {disruption : Disruption}
    (befalls : disruptions .setPayload (start.made .setPayload) = some disruption) :
    let middle := entered start queue tenant task deadline
    let keep : Call := .setPayload queue task.fingerprint task.encode
    (Program.perform keep).Ends (backend MemoryStore.backend disruptions) middle
      (disruption.outcome .setPayload) (middle.counted keep middle.store) := by
  have made := made_entered start queue tenant task deadline (show _ ≠ Call.Kind.setPayload by decide)
  exact ends_perform_disrupted MemoryStore.backend
    ((congrArg (disruptions .setPayload) made).trans befalls)

theorem ends_unkept (queue : String) (tenant : Tenant) (task : Task) (span : Duration) (now : Instant)
    {disruption : Disruption} {old : Double}
    (adds : disruptions .addProcessing (start.made .addProcessing) = none)
    (befalls : disruptions .setPayload (start.made .setPayload) = some disruption)
    (present : ((start.store.queue queue).processingOf tenant).score? task.fingerprint = some old) :
    ∃ last, (beginProcessing queue tenant task span now).Ends
        (backend MemoryStore.backend disruptions) start (disruption.outcome .setPayload) last ∧
      ∀ name, last.store.queue name = start.store.queue name := by
  let deadline := now.epochSeconds.add span.seconds
  let keep : Call := .setPayload queue task.fingerprint task.encode
  let middle := entered start queue tenant task deadline
  have known := QueueState.addProcessing_of_present _ _ _ deadline _ present
  have enters := ends_entered queue tenant task deadline adds
  have once := becomes_entered start queue tenant task deadline
  rw [known] at enters once
  have refuses := ends_setPayload_disrupted queue tenant task deadline befalls
  refine ⟨middle.counted keep middle.store, ?_, MemoryStore.Becomes.unchanged once⟩
  cases disruption with
  | crash => exact enters.bind_ok refuses.attempt.bind_crashed
  | failure => exact enters.bind_ok (refuses.attempt.bind_ok ⟨[], rfl⟩)

theorem ends_takenBack (queue : String) (tenant : Tenant) (task : Task) (span : Duration) (now : Instant)
    (sound : start.store.Sound) (trim : start.store.Trim)
    (adds : disruptions .addProcessing (start.made .addProcessing) = none)
    (befalls : disruptions .setPayload (start.made .setPayload) = some .failure)
    (absent : ((start.store.queue queue).processingOf tenant).score? task.fingerprint = none) :
    ∃ outcome last, (beginProcessing queue tenant task span now).Ends
        (backend MemoryStore.backend disruptions) start outcome last ∧
      (∀ fingerprint, outcome ≠ .ok fingerprint) ∧
      start.Made last .removeProcessing (start.made .removeProcessing) ∧
      (disruptions .removeProcessing (start.made .removeProcessing) = none →
        ∀ name, last.store.queue name = start.store.queue name) := by
  let deadline := now.epochSeconds.add span.seconds
  let keep : Call := .setPayload queue task.fingerprint task.encode
  let middle := entered start queue tenant task deadline
  have enters := ends_entered queue tenant task deadline adds
  rw [QueueState.addProcessing_of_absent _ _ _ deadline absent] at enters
  have refuses := ends_setPayload_disrupted queue tenant task deadline befalls
  obtain ⟨outcome, last, rolls, unfailing, made, undoes⟩ :=
    ends_rollBack disruptions (middle.counted keep middle.store) queue tenant task.fingerprint
  rw [middle.made_counted_other keep _ (show Call.Kind.setPayload ≠ .removeProcessing by decide),
    made_entered start queue tenant task deadline (by decide)] at made undoes
  -- The calls so far were of other kinds, so the first removal from the start on is the one made here.
  have undone (spared : disruptions .removeProcessing (start.made .removeProcessing) = none) :
      ∀ name, last.store.queue name = start.store.queue name := by
    have once := becomes_entered start queue tenant task deadline
    have twice := (undoes spared).2
    simp only [counted, middle, once.queue] at twice
    rw [QueueState.removeProcessing_addProcessing _ tenant task.fingerprint _ (sound queue) (trim queue)
      absent] at twice
    exact MemoryStore.Becomes.unchanged (once.trans twice)
  cases outcome with
  | ok done =>
    exact ⟨_, _, enters.bind_ok (refuses.attempt.bind_ok (rolls.bind_ok ⟨[], rfl⟩)),
      fun _ succeeds => by contradiction, ⟨Nat.le_refl _, made.2⟩, undone⟩
  | failed failure => exact absurd rfl (unfailing failure)
  | crashed crash =>
    exact ⟨_, _, enters.bind_ok (refuses.attempt.bind_ok rolls.bind_crashed),
      fun _ succeeds => by contradiction, ⟨Nat.le_refl _, made.2⟩, undone⟩

end

theorem ends_beginProcessing_disrupted (disruptions : Disruptions) (start : Disrupted MemoryStore)
    (queue : String) (tenant : Tenant) (task : Task) (span : Duration) (now : Instant)
    (sound : start.store.Sound) (trim : start.store.Trim) :
    ∃ outcome last, (beginProcessing queue tenant task span now).Ends
        (backend MemoryStore.backend disruptions) start outcome last ∧
      Begins disruptions start queue tenant task (now.epochSeconds.add span.seconds) outcome last := by
  cases adds : disruptions .addProcessing (start.made .addProcessing) with
  | some disruption =>
    let add : Call := .addProcessing queue tenant task.fingerprint (now.epochSeconds.add span.seconds)
    have refuses : (Program.perform add).Ends (backend MemoryStore.backend disruptions) start
        (disruption.outcome add.kind) _ := ends_perform_disrupted MemoryStore.backend adds
    exact ⟨_, _, ends_bind_disrupted refuses, .refused adds rfl⟩
  | none =>
    cases keeps : disruptions .setPayload (start.made .setPayload) with
    | none =>
      obtain ⟨last, ends, becomes⟩ := ends_begun queue tenant task span now adds keeps
      exact ⟨_, last, ends, .begun becomes⟩
    | some disruption =>
      cases present : ((start.store.queue queue).processingOf tenant).score? task.fingerprint with
      | some old =>
        obtain ⟨last, ends, same⟩ := ends_unkept queue tenant task span now adds keeps present
        exact ⟨_, last, ends, .unkept keeps same⟩
      | none =>
        cases disruption with
        | crash =>
          have enters := ends_entered queue tenant task (now.epochSeconds.add span.seconds) adds
          have refuses :=
            ends_setPayload_disrupted queue tenant task (now.epochSeconds.add span.seconds) keeps
          exact ⟨_, _, enters.bind_ok refuses.attempt.bind_crashed, .brokenOff keeps⟩
        | failure =>
          obtain ⟨outcome, last, ends, fails, made, undone⟩ :=
            ends_takenBack queue tenant task span now sound trim adds keeps present
          exact ⟨outcome, last, ends, .takenBack fails keeps made undone⟩

section
variable {disruptions : Disruptions} {start last : Disrupted MemoryStore} {queue : String}
  {tenant : Tenant} {task : Task} {deadline : Double} {outcome : Outcome Fingerprint}

theorem Begins.succeeds (begins : Begins disruptions start queue tenant task deadline outcome last)
    (adds : disruptions .addProcessing (start.made .addProcessing) = none)
    (keeps : disruptions .setPayload (start.made .setPayload) = none) :
    outcome = .ok task.fingerprint := by
  cases begins with
  | begun becomes => rfl
  | refused befalls same =>
    rw [adds] at befalls
    contradiction
  | unkept befalls same =>
    rw [keeps] at befalls
    contradiction
  | takenBack fails befalls made undone =>
    rw [keeps] at befalls
    contradiction
  | brokenOff befalls =>
    rw [keeps] at befalls
    contradiction

theorem Begins.becomes {fingerprint : Fingerprint}
    (begins : Begins disruptions start queue tenant task deadline outcome last)
    (succeeds : outcome = .ok fingerprint) :
    fingerprint = task.fingerprint ∧ start.store.Becomes last.store queue
      ((start.store.queue queue).beginEntry tenant task deadline) := by
  cases begins with
  | begun becomes => exact ⟨(Outcome.ok.inj succeeds).symm, becomes⟩
  | refused befalls same => exact absurd succeeds (disruption_fails _ _ fingerprint)
  | unkept befalls same => exact absurd succeeds (disruption_fails _ _ fingerprint)
  | takenBack fails befalls made undone => exact absurd succeeds (fails fingerprint)
  | brokenOff befalls => contradiction

theorem Begins.unchanged {failure : Failure}
    (begins : Begins disruptions start queue tenant task deadline outcome last)
    (fails : outcome = .failed failure)
    (spared : ∀ earlier, start.Made last .removeProcessing earlier →
      disruptions .removeProcessing earlier = none) (name : String) :
    last.store.queue name = start.store.queue name := by
  cases begins with
  | begun becomes => contradiction
  | refused befalls same => rw [same]
  | unkept befalls same => exact same name
  | takenBack unsuccessful befalls made undone => exact undone (spared _ made) name
  | brokenOff befalls => contradiction

end

theorem becomes_of_ends_endProcessing {disruptions : Disruptions} {state last : Disrupted MemoryStore}
    {queue : String} {tenant : Tenant} {fingerprint : Fingerprint} (named : fingerprint.isEmpty = false)
    (ends : (endProcessing queue tenant fingerprint).Ends (backend MemoryStore.backend disruptions) state
      (.ok ()) last) :
    state.store.Becomes last.store queue ((state.store.queue queue).dropEntry tenant fingerprint) := by
  rw [endProcessing, named, if_neg Bool.false_ne_true] at ends
  obtain ⟨outcome, after, again, account⟩ := ends_disrupted MemoryStore.backend disruptions _ state
    (yields_dropEntry queue tenant fingerprint)
  obtain ⟨rfl, rfl⟩ := ends.unique again
  rcases account with ⟨plain, _⟩ | ⟨asked, disruption, _, broken, _⟩
  · obtain ⟨dropped, drops, becomes⟩ := ends_dropEntry state.store queue tenant fingerprint
    rw [← (drops.unique plain).2]
    exact becomes
  · cases disruption <;> contradiction

theorem fingerprint_named (task : Task) : task.fingerprint.isEmpty = false := by
  refine Bool.eq_false_iff.mpr fun unnamed => ?_
  have text : task.fingerprint.text = "" := String.isEmpty_iff.mp unnamed
  have length := congrArg (fun text : String => text.toList.length) text
  simp only [Task.fingerprint, Fingerprint.of, Bytes.length_hex, Digest.length_sha256] at length
  contradiction

/-- If the beginning of a task succeeds, its entry has the deadline that it had before or else the new
one, and its record is kept. If it fails, everything is as it was, unless the entry could not be taken
back. A new entry that is begun and ended leaves everything as it was. -/
theorem begin_all_or_nothing (calls : List Call) (counts : Table Call.Kind Nat) (disruptions : Disruptions)
    (queue : String) (tenant : Tenant) (task : Task) (span : Duration) (now : Instant) :
    let store := MemoryStore.after calls
    let start : Disrupted MemoryStore := ⟨store, counts⟩
    let disrupted := backend MemoryStore.backend disruptions
    let old? := ((store.queue queue).processingOf tenant).score? task.fingerprint
    ∃ outcome last,
      (beginProcessing queue tenant task span now).Ends disrupted start outcome last ∧
      (disruptions .addProcessing (start.made .addProcessing) = none →
        disruptions .setPayload (start.made .setPayload) = none → outcome = .ok task.fingerprint) ∧
      (∀ fingerprint, outcome = .ok fingerprint →
        fingerprint = task.fingerprint ∧
        ((last.store.queue queue).processingOf tenant).score? fingerprint =
          some (old?.getD (now.epochSeconds.add span.seconds)) ∧
        (last.store.queue queue).payloads.get? fingerprint = some task.encode) ∧
      (∀ failure, outcome = .failed failure →
        (∀ earlier, start.Made last .removeProcessing earlier →
          disruptions .removeProcessing earlier = none) →
        ∀ name, last.store.queue name = store.queue name) ∧
      ∀ fingerprint, outcome = .ok fingerprint → old? = none →
        (store.queue queue).payloads.get? fingerprint = none →
        ∀ done, (endProcessing queue tenant fingerprint).Ends disrupted last (.ok ()) done →
        ∀ name, done.store.queue name = store.queue name := by
  intro store start disrupted old?
  have sound := MemoryStore.after_sound calls
  have trim := MemoryStore.after_trim calls
  obtain ⟨outcome, last, ends, begins⟩ :=
    ends_beginProcessing_disrupted disruptions start queue tenant task span now sound trim
  refine ⟨outcome, last, ends, begins.succeeds, ?_, fun failure => begins.unchanged, ?_⟩
  · intro fingerprint succeeds
    obtain ⟨rfl, becomes⟩ := begins.becomes succeeds
    rw [becomes.queue, QueueState.score?_beginEntry, if_pos ⟨rfl, rfl⟩]
    refine ⟨rfl, rfl, ?_⟩
    rw [QueueState.beginEntry, Table.get?_set, if_pos rfl]
  · intro fingerprint succeeds absent unkept done ended
    obtain ⟨rfl, becomes⟩ := begins.becomes succeeds
    have dropped := becomes_of_ends_endProcessing (fingerprint_named task) ended
    rw [becomes.queue, QueueState.dropEntry_beginEntry _ tenant task _ (sound queue) (trim queue) absent
      unkept] at dropped
    exact MemoryStore.Becomes.unchanged (becomes.trans dropped)

/-- A record that is refused, with another tenant's entry in the store; and a task begun and ended. -/
theorem begin_all_or_nothing_both_ways :
    let task : Task := ⟨"t", ⟨1⟩, [97], ⟨0, 0⟩, 0⟩
    let store := MemoryStore.after [.addProcessing "q" ⟨2⟩ ⟨"other"⟩ 0]
    let refusing : Disruptions := fun kind _ => if kind = .setPayload then some .failure else none
    (∃ failure last, (beginProcessing "q" ⟨1⟩ task ⟨0⟩ ⟨0, 0⟩).Ends
        (backend MemoryStore.backend refusing) ⟨store, Table.empty⟩ (.failed failure) last ∧
      ∀ name, last.store.queue name = store.queue name) ∧
    ∃ last done, (beginProcessing "q" ⟨1⟩ task ⟨0⟩ ⟨0, 0⟩).Ends
        (backend MemoryStore.backend never) ⟨store, Table.empty⟩ (.ok task.fingerprint) last ∧
      (endProcessing "q" ⟨1⟩ task.fingerprint).Ends (backend MemoryStore.backend never) last
        (.ok ()) done ∧
      ∀ name, done.store.queue name = store.queue name := by
  intro task store refusing
  let calls : List Call := [.addProcessing "q" ⟨2⟩ ⟨"other"⟩ 0]
  constructor
  · obtain ⟨outcome, last, ends, _, _, same, _⟩ :=
      begin_all_or_nothing calls Table.empty refusing "q" ⟨1⟩ task ⟨0⟩ ⟨0, 0⟩
    have refused : ∃ failure after, (beginProcessing "q" ⟨1⟩ task ⟨0⟩ ⟨0, 0⟩).Ends
        (backend MemoryStore.backend refusing) ⟨store, Table.empty⟩ (.failed failure) after :=
      ⟨_, _, _, rfl⟩
    obtain ⟨failure, after, ended⟩ := refused
    obtain ⟨rfl, rfl⟩ := ended.unique ends
    exact ⟨failure, after, ended, same failure rfl fun _ _ => rfl⟩
  · obtain ⟨outcome, last, ends, succeeds, _, _, restores⟩ :=
      begin_all_or_nothing calls Table.empty never "q" ⟨1⟩ task ⟨0⟩ ⟨0, 0⟩
    obtain rfl := succeeds rfl rfl
    have ended : ∃ done, (endProcessing "q" ⟨1⟩ task.fingerprint).Ends
        (backend MemoryStore.backend never) last (.ok ()) done := by
      rw [endProcessing, fingerprint_named, if_neg Bool.false_ne_true]
      exact ⟨_, [], rfl⟩
    obtain ⟨done, ended⟩ := ended
    exact ⟨last, done, ends, ended, restores _ rfl rfl rfl done ended⟩

end Engine
end TenantQueue
