import TenantQueue.Proofs.Engine.Redelivery
import Mathlib

/-! What a sweep clears. It ends well exactly if each expired entry of a registered tenant either
keeps no readable task or one that the queue takes again, and then none of these entries is left. Otherwise
it ends at the first entry that is refused, which stays and ends every later sweep as well. -/
namespace TenantQueue

/-- A stored task that can be read is one that the queue takes again, and when it is due again the
calendar has not ended. -/
def Engine.Redeliverable (engine : Engine) (queue : String) (now : Instant)
    (record? : Option Bytes) : Prop :=
  ∀ record task, record? = some record → Task.decode record = .ok task →
    engine.check queue task = .ok () ∧
      (redeliveryTime? now (engine.config.backoff (task.errorCount + 1))).isSome

theorem Engine.redeliverable_iff (engine : Engine) (queue : String) (now : Instant)
    (record? : Option Bytes) :
    engine.Redeliverable queue now record? ↔
      ∃ count, (engine.fate queue now record?).outcome = .ok count := by
  cases record? with
  | none =>
    refine iff_of_true ?_ ⟨0, rfl⟩
    intro record task absent
    contradiction
  | some record =>
    cases decoded : Task.decode record with
    | error failure =>
      refine iff_of_true ?_ ⟨0, by simp only [fate, decoded, Fate.outcome]⟩
      rintro _ task ⟨⟩ read
      rw [decoded] at read
      contradiction
    | ok task =>
      have one : engine.Redeliverable queue now (some record) ↔
          engine.check queue task = .ok () ∧
            (redeliveryTime? now (engine.config.backoff (task.errorCount + 1))).isSome := by
        constructor
        · intro all
          exact all record task rfl decoded
        · rintro both _ stored ⟨⟩ read
          rw [decoded, Except.ok.injEq] at read
          exact read ▸ both
      rw [one]
      simp only [fate, decoded]
      cases redeliveryTime? now (engine.config.backoff (task.errorCount + 1)) with
      | none => simp [Fate.outcome]
      | some time =>
        cases engine.check queue task with
        | error failure => simp [Fate.outcome]
        | ok accepted => exact iff_of_true ⟨rfl, rfl⟩ ⟨1, rfl⟩

namespace QueueState
variable {engine : Engine} {queue : String} {now : Instant}
  {entries : List (Tenant × Fingerprint)} {state last : QueueState} {count : Nat}

/-- A sweep comes to the entry: its deadline has come and its tenant is registered. -/
def Expired (state : QueueState) (tenant : Tenant) (fingerprint : Fingerprint) (now : Double) :
    Prop :=
  (state.inFlight tenant).isSome ∧ state.IsDue tenant fingerprint now

theorem expired_of_mem_expiredOf (state : QueueState) (now : Double)
    (registered : List (Tenant × Int)) (tenant : Tenant) (fingerprint : Fingerprint)
    (sound : state.Sound)
    (listed : ∀ tenant count, (tenant, count) ∈ registered ↔ state.inFlight tenant = some count)
    (member : (tenant, fingerprint) ∈ state.expiredOf now registered) :
    state.Expired tenant fingerprint now := by
  simp only [expiredOf, List.mem_flatMap, List.mem_map, Prod.mk.injEq] at member
  obtain ⟨⟨owner, count⟩, present, entry, expired, rfl, rfl⟩ := member
  exact ⟨Option.isSome_of_eq_some ((listed _ _).mp present),
    ScoredSet.passes_of_mem_takeWhile _ _ _ (sound.processingInStep owner) expired⟩

theorem mem_expiredOf (state : QueueState) (now : Double) (registered : List (Tenant × Int))
    (tenant : Tenant) (fingerprint : Fingerprint) (sound : state.Sound) (timely : state.Timely)
    (listed : ∀ tenant count, (tenant, count) ∈ registered ↔ state.inFlight tenant = some count) :
    (tenant, fingerprint) ∈ state.expiredOf now registered ↔
      state.Expired tenant fingerprint now := by
  constructor
  · exact expired_of_mem_expiredOf state now registered tenant fingerprint sound listed
  · rintro ⟨present, due⟩
    obtain ⟨count, found⟩ := Option.isSome_iff_exists.mp present
    simp only [expiredOf, List.mem_flatMap, List.mem_map, Prod.mk.injEq]
    exact ⟨(tenant, count), (listed _ _).mpr found, fingerprint,
      (mem_expiredProcessing state _ _ now sound timely).mpr due, rfl, rfl⟩

theorem expiredOf_nodup (state : QueueState) (now : Double) (registered : List (Tenant × Int))
    (sound : state.Sound) (distinct : (registered.map Prod.fst).Nodup) :
    (state.expiredOf now registered).Nodup := by
  refine List.nodup_flatMap.mpr ⟨?_, ?_⟩
  · intro entry _
    exact (expiredProcessing_nodup state entry.1 now sound).map fun first second same =>
      congrArg Prod.snd same
  · refine (List.pairwise_map.mp distinct).imp ?_
    intro first second differ entry here there
    obtain ⟨_, _, rfl⟩ := List.mem_map.mp here
    obtain ⟨_, _, same⟩ := List.mem_map.mp there
    exact differ (congrArg Prod.fst same).symm

/-- What is kept for an entry when its turn comes is what was kept for it before, or nothing. -/
theorem Delivers.payload_cases (delivers : Delivers engine queue now entries state count last)
    (fingerprint : Fingerprint) :
    last.payloads.get? fingerprint = none ∨
      last.payloads.get? fingerprint = state.payloads.get? fingerprint := by
  rw [delivers.payloads]
  split
  · exact Or.inl rfl
  · exact Or.inr rfl

theorem Delivers.redeliverable (delivers : Delivers engine queue now entries state count last)
    (tenant : Tenant) (fingerprint : Fingerprint) (listed : (tenant, fingerprint) ∈ entries) :
    engine.Redeliverable queue now (state.payloads.get? fingerprint) := by
  induction delivers with
  | nil => simp at listed
  | @cons owner entry entries state last fate count others met goesOn _ ih =>
    by_cases same : entry = fingerprint
    · subst same
      rw [Engine.redeliverable_iff, met]
      exact ⟨count, goesOn⟩
    · have later : (tenant, fingerprint) ∈ entries := by
        simpa [Ne.symm same] using listed
      have kept := ih later
      rwa [payloads_settle _ _ _ _ _ goesOn, if_neg same] at kept

/-- A task that was kept for one of the entries is pending again, for the first of them. -/
theorem Delivers.requeued (delivers : Delivers engine queue now entries state count last)
    (tenant : Tenant) (fingerprint : Fingerprint) (record : Bytes) (task : Task)
    (listed : (tenant, fingerprint) ∈ entries)
    (kept : state.payloads.get? fingerprint = some record) (decoded : Task.decode record = .ok task) :
    ∃ owner, (owner, fingerprint) ∈ entries ∧
      ((last.pendingOf owner).score? task.failedAgain.encode).isSome := by
  induction delivers with
  | nil => simp at listed
  | @cons owner entry entries state last fate count others met goesOn rest ih =>
    by_cases same : entry = fingerprint
    · subst same
      refine ⟨owner, List.mem_cons_self .., rest.pending _ _ ?_⟩
      simp only [Engine.fate, kept, decoded] at met
      split at met
      · simp [← met, Fate.outcome] at goesOn
      · split at met
        · simp [← met, Fate.outcome] at goesOn
        · subst met
          change (((state.push owner _ _).pendingOf owner).score? _).isSome
          simp
    · have later : (tenant, fingerprint) ∈ entries := by
        simpa [Ne.symm same] using listed
      have stays : (state.settle owner entry fate).payloads.get? fingerprint = some record := by
        rw [payloads_settle _ _ _ _ _ goesOn, if_neg same]
        exact kept
      obtain ⟨other, member, pending⟩ := ih later stays
      exact ⟨other, List.mem_cons_of_mem _ member, pending⟩

theorem Sweeps.ok_iff {outcome : Outcome Nat}
    (sweeps : Sweeps engine queue now entries state outcome last) :
    (∃ count, outcome = .ok count) ↔ ∀ tenant fingerprint, (tenant, fingerprint) ∈ entries →
      engine.Redeliverable queue now (state.payloads.get? fingerprint) := by
  constructor
  · rintro ⟨count, rfl⟩ tenant fingerprint listed
    exact sweeps.delivers.redeliverable tenant fingerprint listed
  · intro all
    rcases sweeps with ⟨count, ended, _⟩ |
      ⟨before, tenant, fingerprint, rest, count, split, delivers, ended, stops⟩
    · exact ⟨count, ended⟩
    · have listed : (tenant, fingerprint) ∈ entries := by simp [split]
      have goesOn : ∃ others, outcome = .ok others := by
        rw [← ended]
        rcases delivers.payload_cases fingerprint with gone | kept
        · exact ⟨0, by rw [gone]; rfl⟩
        · rw [kept]
          exact (engine.redeliverable_iff queue now _).mp (all tenant fingerprint listed)
      exact goesOn

end QueueState

/-- Why the sweep ends at an entry: its task comes due after the calendar ends, or is refused. -/
theorem Engine.fate_stopped (engine : Engine) (queue : String) (now : Instant)
    (record? : Option Bytes)
    (stops : ∀ count, (engine.fate queue now record?).outcome ≠ .ok count) :
    ∃ record task, record? = some record ∧ Task.decode record = .ok task ∧
      ((redeliveryTime? now (engine.config.backoff (task.errorCount + 1)) = none ∧
          (engine.fate queue now record?).outcome = .crashed .beyondCalendar) ∨
        ∃ failure, engine.check queue task = .error failure ∧
          (engine.fate queue now record?).outcome = .failed failure) := by
  cases record? with
  | none => exact absurd rfl (stops 0)
  | some record =>
    cases decoded : Task.decode record with
    | error failure =>
      simp only [fate, decoded] at stops
      exact absurd rfl (stops 0)
    | ok task =>
      refine ⟨record, task, rfl, decoded, ?_⟩
      simp only [fate, decoded] at stops ⊢
      cases due : redeliveryTime? now (engine.config.backoff (task.errorCount + 1)) with
      | none => exact Or.inl ⟨rfl, rfl⟩
      | some time =>
        cases accepted : engine.check queue task with
        | error failure => exact Or.inr ⟨failure, rfl, rfl⟩
        | ok accepts =>
          simp only [due, accepted] at stops
          exact absurd rfl (stops 1)

namespace QueueState
variable {engine : Engine} {queue : String} {now : Instant}
  {entries : List (Tenant × Fingerprint)} {state last : QueueState} {count : Nat}

/-- After all expired entries have had their turns none is left. -/
theorem Delivers.none_expired (delivers : Delivers engine queue now entries state count last)
    (sound : state.Sound)
    (expired : ∀ tenant fingerprint, (tenant, fingerprint) ∈ entries ↔
      state.Expired tenant fingerprint now.epochSeconds)
    (tenant : Tenant) (fingerprint : Fingerprint) :
    ¬last.Expired tenant fingerprint now.epochSeconds := by
  rintro ⟨registered, deadline, found, due⟩
  rw [delivers.registered fun entry listed => ((expired _ _).mp listed).1] at registered
  rw [delivers.processing sound] at found
  split at found
  · contradiction
  · rename_i absent
    exact absent ((expired _ _).mpr ⟨registered, deadline, found, due⟩)

/-- The entry that ends a sweep is still there when it has ended. -/
theorem Sweeps.stuck {outcome : Outcome Nat}
    (sweeps : Sweeps engine queue now entries state outcome last) (sound : state.Sound)
    (distinct : entries.Nodup) (stops : ∀ count, outcome ≠ .ok count)
    (expired : ∀ tenant fingerprint, (tenant, fingerprint) ∈ entries ↔
      state.Expired tenant fingerprint now.epochSeconds) :
    ∃ tenant fingerprint, state.Expired tenant fingerprint now.epochSeconds ∧
      last.Expired tenant fingerprint now.epochSeconds ∧
      last.payloads.get? fingerprint = state.payloads.get? fingerprint ∧
      (engine.fate queue now (state.payloads.get? fingerprint)).outcome = outcome := by
  rcases sweeps with ⟨count, ended, _⟩ |
    ⟨before, tenant, fingerprint, rest, count, split, delivers, ended, _⟩
  · exact absurd ended (stops count)
  · have listed : (tenant, fingerprint) ∈ entries := by simp [split]
    have here := (expired tenant fingerprint).mp listed
    obtain ⟨registered, deadline, found, due⟩ := (expired tenant fingerprint).mp listed
    have fresh : (tenant, fingerprint) ∉ before := by
      rw [split] at distinct
      intro earlier
      exact (List.nodup_append.mp distinct).2.2 _ earlier _ (List.mem_cons_self ..) rfl
    have kept : last.payloads.get? fingerprint = state.payloads.get? fingerprint := by
      rcases delivers.payload_cases fingerprint with gone | same
      · rw [gone] at ended
        exact absurd ended.symm (stops 0)
      · exact same
    refine ⟨tenant, fingerprint, here, ⟨?_, deadline, ?_, due⟩, kept, by rw [← kept, ended]⟩
    · rw [delivers.registered]
      · exact registered
      · intro entry earlier
        exact ((expired _ _).mp (split ▸ List.mem_append_left _ earlier)).1
    · rw [delivers.processing sound, if_neg fresh]
      exact found

end QueueState

open Program

theorem Engine.ends_requeueExpired_entries (engine : Engine) (store : MemoryStore) (queue : String)
    (now : Instant) (sound : store.Sound) (timely : store.Timely) :
    ∃ entries outcome last,
      (engine.requeueExpired queue now).Ends MemoryStore.backend store outcome last ∧
      entries.Nodup ∧
      (∀ tenant fingerprint, (tenant, fingerprint) ∈ entries ↔
        (store.queue queue).Expired tenant fingerprint now.epochSeconds) ∧
      QueueState.Sweeps engine queue now entries (store.queue queue) outcome (last.queue queue) := by
  obtain ⟨registered, outcome, last, state, ended, distinct, listed, becomes, sweeps⟩ :=
    ends_requeueExpired engine store queue now sound
  rw [← becomes.queue] at sweeps
  refine ⟨_, outcome, last, ended, QueueState.expiredOf_nodup _ _ _ (sound queue) distinct, ?_, sweeps⟩
  intro tenant fingerprint
  exact QueueState.mem_expiredOf _ _ registered tenant fingerprint (sound queue) (timely queue) listed

/-- A sweep ends well exactly if no task that is kept for an expired entry is refused or due after the
end of the calendar. Then each expired entry of a registered tenant is gone, and what was kept for
it is pending again unless it was missing or unreadable. If it does not end well, it ends for an entry
that is refused, and this entry stays as it was. -/
theorem Engine.requeueExpired_clears_iff (engine : Engine) (operations : List Operation)
    (queue : String) (now : Instant) :
    let state := (engine.after operations).queue queue
    ∃ outcome last, (engine.requeueExpired queue now).Ends MemoryStore.backend
        (engine.after operations) outcome last ∧
      ((∃ count, outcome = .ok count) ↔
        ∀ tenant fingerprint, state.Expired tenant fingerprint now.epochSeconds →
          engine.Redeliverable queue now (state.payloads.get? fingerprint)) ∧
      (∀ count, outcome = .ok count →
        (∀ tenant fingerprint, ¬(last.queue queue).Expired tenant fingerprint now.epochSeconds) ∧
        ∀ tenant fingerprint, state.Expired tenant fingerprint now.epochSeconds →
          ((last.queue queue).processingOf tenant).score? fingerprint = none ∧
          (last.queue queue).payloads.get? fingerprint = none ∧
          ∀ record task, state.payloads.get? fingerprint = some record →
            Task.decode record = .ok task →
            ∃ owner, state.Expired owner fingerprint now.epochSeconds ∧
              (((last.queue queue).pendingOf owner).score? task.failedAgain.encode).isSome) ∧
      ((∀ count, outcome ≠ .ok count) →
        ∃ tenant fingerprint record task, state.Expired tenant fingerprint now.epochSeconds ∧
          state.payloads.get? fingerprint = some record ∧ Task.decode record = .ok task ∧
          ((redeliveryTime? now (engine.config.backoff (task.errorCount + 1)) = none ∧
              outcome = .crashed .beyondCalendar) ∨
            ∃ failure, engine.check queue task = .error failure ∧ outcome = .failed failure) ∧
          (last.queue queue).Expired tenant fingerprint now.epochSeconds ∧
          (last.queue queue).payloads.get? fingerprint = some record) := by
  intro state
  obtain ⟨sound, timely⟩ := after_keeps engine operations
  obtain ⟨entries, outcome, last, ended, distinct, expired, sweeps⟩ :=
    ends_requeueExpired_entries engine _ queue now sound timely
  refine ⟨outcome, last, ended, ?_, ?_, ?_⟩
  · rw [sweeps.ok_iff]
    simp only [expired]
    rfl
  · rintro count rfl
    have delivers := sweeps.delivers
    refine ⟨delivers.none_expired (sound queue) expired, ?_⟩
    intro tenant fingerprint due
    have listed := (expired tenant fingerprint).mpr due
    refine ⟨?_, ?_, ?_⟩
    · rw [delivers.processing (sound queue), if_pos listed]
    · rw [delivers.payloads, if_pos (List.mem_map_of_mem listed)]
    · intro record task kept decoded
      obtain ⟨owner, member, pending⟩ :=
        delivers.requeued tenant fingerprint record task listed kept decoded
      exact ⟨owner, (expired owner fingerprint).mp member, pending⟩
  · intro stops
    obtain ⟨tenant, fingerprint, due, stays, kept, met⟩ :=
      sweeps.stuck (sound queue) distinct stops expired
    obtain ⟨record, task, present, decoded, cause⟩ :=
      engine.fate_stopped queue now _ fun count ok => stops count (met.symm.trans ok)
    rw [met] at cause
    exact ⟨tenant, fingerprint, record, task, due, present, decoded, cause, stays,
      kept.trans present⟩

namespace Engine

def noon : Instant := ⟨1700000000, 0⟩

def typed : Task := ⟨"t", ⟨1⟩, [0x61], noon, 0⟩

def untyped : Task := { typed with taskType := "" }

/-- A task without a type is being worked on, for a tenant that is registered. -/
def poisoned : List Operation :=
  [.enqueueAt "q" ⟨1⟩ typed noon .normal, .beginProcessing "q" ⟨1⟩ untyped ⟨0⟩ noon]

/-- The sweep is stopped by the entry that no queue takes, which stays. -/
theorem untyped_stops_sweep :
    ∃ outcome last, (standard.requeueExpired "q" noon).Ends MemoryStore.backend
        (standard.after poisoned) outcome last ∧
      (∀ count, outcome ≠ .ok count) ∧
      ∃ tenant fingerprint, (last.queue "q").Expired tenant fingerprint noon.epochSeconds := by
  obtain ⟨sound, timely⟩ := after_keeps standard poisoned
  obtain ⟨entries, outcome, last, ended, distinct, expired, sweeps⟩ :=
    ends_requeueExpired_entries standard _ "q" noon sound timely
  obtain ⟨pushed, pushes, first⟩ :=
    ends_enqueueAt standard MemoryStore.empty "q" ⟨1⟩ typed noon .normal rfl
  obtain ⟨begun, begins, second⟩ := ends_beginProcessing pushed "q" ⟨1⟩ untyped ⟨0⟩ noon
  have state : (standard.after poisoned).queue "q" =
      (QueueState.empty.push ⟨1⟩ typed.encode (score noon .normal)).beginEntry ⟨1⟩ untyped
        (noon.epochSeconds.add (Duration.seconds ⟨0⟩)) := by
    have reached : standard.after poisoned = begun := by
      rw [after, poisoned, List.foldl_cons, List.foldl_cons, List.foldl_nil, perform, perform,
        pushes.leaves, begins.leaves]
    rw [reached, second.queue, first.queue, MemoryStore.queue_empty]
  have stops : ∀ count, outcome ≠ .ok count := by
    intro count ok
    have due : ((standard.after poisoned).queue "q").Expired ⟨1⟩ untyped.fingerprint
        noon.epochSeconds := by
      rw [state]
      refine ⟨rfl, noon.epochSeconds.add (Duration.seconds ⟨0⟩), ?_, by decide +kernel⟩
      have fresh : ((QueueState.empty.push ⟨1⟩ typed.encode (score noon .normal)).processingOf
          ⟨1⟩).score? untyped.fingerprint = none := rfl
      rw [QueueState.score?_beginEntry, if_pos ⟨rfl, rfl⟩, fresh, Option.getD_none]
    have kept : ((standard.after poisoned).queue "q").payloads.get? untyped.fingerprint =
        some untyped.encode := by
      rw [state]
      rw [QueueState.beginEntry, Table.get?_set, if_pos rfl]
    have accepted := sweeps.ok_iff.mp ⟨count, ok⟩ _ _ ((expired _ _).mpr due) _ untyped kept (by cbv)
    have refused : standard.check "q" untyped = .error (.validation .emptyTaskType) := rfl
    rw [refused] at accepted
    exact absurd accepted.1 (by simp)
  obtain ⟨tenant, fingerprint, _, stays, _⟩ := sweeps.stuck (sound "q") distinct stops expired
  exact ⟨outcome, last, ended, stops, tenant, fingerprint, stays⟩

end Engine
end TenantQueue
