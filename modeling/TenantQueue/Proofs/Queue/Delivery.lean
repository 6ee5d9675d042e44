import TenantQueue.Engine.Durable
import TenantQueue.Proofs.Queue.Calls

/-! A sweep of one queue without the store and the program. The expired entries of the registered tenants
have their turns one after the other, and what becomes of each is decided by the record that is kept
for it. The first that can neither be delivered nor dropped ends the sweep. -/
namespace TenantQueue

inductive Fate where
  | dropped
  | requeued (task : Task) (time : Instant)
  | refused (failure : Failure)
  | beyondCalendar

namespace Fate

def outcome : Fate → Outcome Nat
  | dropped => .ok 0
  | requeued _ _ => .ok 1
  | refused failure => .failed failure
  | beyondCalendar => .crashed .beyondCalendar

end Fate

def Task.failedAgain (task : Task) : Task := { task with errorCount := task.errorCount + 1 }

def Engine.fate (engine : Engine) (queue : String) (now : Instant) (record? : Option Bytes) : Fate :=
  match record? with
  | none => .dropped
  | some record =>
    match Task.decode record with
    | .error _ => .dropped
    | .ok task =>
      match redeliveryTime? now (engine.config.backoff (task.errorCount + 1)) with
      | none => .beyondCalendar
      | some time =>
        match engine.check queue task with
        | .error failure => .refused failure
        | .ok () => .requeued task.failedAgain time

namespace QueueState

def dropEntry (state : QueueState) (tenant : Tenant) (fingerprint : Fingerprint) : QueueState :=
  { state.removeProcessing tenant fingerprint with payloads := state.payloads.erase fingerprint }

def beginEntry (state : QueueState) (tenant : Tenant) (task : Task) (deadline : Double) :
    QueueState :=
  { (state.addProcessing tenant task.fingerprint deadline).2 with
    payloads := state.payloads.set task.fingerprint task.encode }

theorem score?_beginEntry (state : QueueState) (tenant other : Tenant) (task : Task)
    (deadline : Double) (fingerprint : Fingerprint) :
    ((state.beginEntry tenant task deadline).processingOf other).score? fingerprint =
      if tenant = other ∧ task.fingerprint = fingerprint then
        some (((state.processingOf other).score? fingerprint).getD deadline)
      else ((state.processingOf other).score? fingerprint) :=
  state.score?_addProcessing tenant other task.fingerprint fingerprint deadline

def settle (state : QueueState) (tenant : Tenant) (fingerprint : Fingerprint) : Fate → QueueState
  | .dropped => state.dropEntry tenant fingerprint
  | .requeued task time =>
    ((state.push tenant task.encode (score time .normal)).release tenant).dropEntry tenant fingerprint
  | .refused _ => state
  | .beyondCalendar => state

end QueueState

def Outcome.plus (count : Nat) : Outcome Nat → Outcome Nat
  | .ok others => .ok (count + others)
  | stop => stop

namespace QueueState

/-- Entries have their turns one after the other, and each is delivered or dropped. -/
inductive Delivers (engine : Engine) (queue : String) (now : Instant) :
    List (Tenant × Fingerprint) → QueueState → Nat → QueueState → Prop
  | nil (state : QueueState) : Delivers engine queue now [] state 0 state
  | cons {tenant : Tenant} {fingerprint : Fingerprint} {entries : List (Tenant × Fingerprint)}
    {state last : QueueState} {fate : Fate} {count others : Nat}
    (met : engine.fate queue now (state.payloads.get? fingerprint) = fate)
    (goesOn : fate.outcome = .ok count)
    (rest : Delivers engine queue now entries (state.settle tenant fingerprint fate) others last) :
    Delivers engine queue now ((tenant, fingerprint) :: entries) state (count + others) last

/-- All entries are delivered or dropped, or all before one that ends the sweep. -/
def Sweeps (engine : Engine) (queue : String) (now : Instant) (entries : List (Tenant × Fingerprint))
    (state : QueueState) (outcome : Outcome Nat) (last : QueueState) : Prop :=
  (∃ count, outcome = .ok count ∧ Delivers engine queue now entries state count last) ∨
  ∃ before tenant fingerprint rest count, entries = before ++ (tenant, fingerprint) :: rest ∧
    Delivers engine queue now before state count last ∧
    (engine.fate queue now (last.payloads.get? fingerprint)).outcome = outcome ∧
    ∀ others, outcome ≠ .ok others

variable {engine : Engine} {queue : String} {now : Instant}
  {first second entries : List (Tenant × Fingerprint)} {state middle last : QueueState}
  {count others : Nat}

theorem Delivers.append (once : Delivers engine queue now first state count middle)
    (twice : Delivers engine queue now second middle others last) :
    Delivers engine queue now (first ++ second) state (count + others) last := by
  induction once with
  | nil => rw [Nat.zero_add]; exact twice
  | cons met goesOn _ ih =>
    rw [Nat.add_assoc]
    exact .cons met goesOn (ih twice)

theorem Delivers.sweeps_append {outcome : Outcome Nat}
    (once : Delivers engine queue now first state count middle)
    (twice : Sweeps engine queue now second middle outcome last) :
    Sweeps engine queue now (first ++ second) state (outcome.plus count) last := by
  rcases twice with ⟨others, rfl, delivers⟩ |
    ⟨before, tenant, fingerprint, rest, others, split, delivers, ended, stops⟩
  · exact Or.inl ⟨count + others, rfl, once.append delivers⟩
  · have same : outcome.plus count = outcome := by
      cases outcome with
      | ok others => exact absurd rfl (stops others)
      | failed failure => rfl
      | crashed crash => rfl
    refine Or.inr ⟨first ++ before, tenant, fingerprint, rest, count + others, ?_,
      once.append delivers, ?_, ?_⟩
    · rw [split, List.append_assoc]
    · rw [ended, same]
    · rw [same]
      exact stops

theorem Sweeps.append_stopped {outcome : Outcome Nat}
    (once : Sweeps engine queue now first state outcome last)
    (stops : ∀ others, outcome ≠ .ok others) :
    Sweeps engine queue now (first ++ second) state outcome last := by
  rcases once with ⟨others, ended, _⟩ |
    ⟨before, tenant, fingerprint, rest, others, split, delivers, ended, _⟩
  · exact absurd ended (stops others)
  · refine Or.inr ⟨before, tenant, fingerprint, rest ++ second, others, ?_, delivers, ended, stops⟩
    rw [split, List.append_assoc, List.cons_append]

theorem Sweeps.delivers (sweeps : Sweeps engine queue now entries state (.ok count) last) :
    Delivers engine queue now entries state count last := by
  rcases sweeps with ⟨others, ended, delivers⟩ | ⟨_, _, _, _, _, _, _, _, stops⟩
  · rw [Outcome.ok.injEq] at ended
    exact ended ▸ delivers
  · exact absurd rfl (stops count)

theorem Sweeps.of_nil {outcome : Outcome Nat}
    (sweeps : Sweeps engine queue now [] state outcome last) : outcome = .ok 0 ∧ last = state := by
  rcases sweeps with ⟨count, ended, delivers⟩ | ⟨before, _, _, rest, _, split, _⟩
  · cases delivers
    exact ⟨ended, rfl⟩
  · simp at split

theorem dropEntry_sound (state : QueueState) (tenant : Tenant) (fingerprint : Fingerprint)
    (sound : state.Sound) : (state.dropEntry tenant fingerprint).Sound := by
  have removed := removeProcessing_sound state tenant fingerprint sound
  exact removed.of_processing rfl rfl removed.processingInStep

theorem settle_sound (state : QueueState) (tenant : Tenant) (fingerprint : Fingerprint) (fate : Fate)
    (sound : state.Sound) : (state.settle tenant fingerprint fate).Sound := by
  cases fate with
  | dropped => exact dropEntry_sound state tenant fingerprint sound
  | requeued task time =>
    exact dropEntry_sound _ tenant fingerprint
      (release_sound _ tenant (push_sound state tenant _ _ sound))
  | refused failure => exact sound
  | beyondCalendar => exact sound

theorem processingOf_settle (state : QueueState) (tenant other : Tenant) (fingerprint : Fingerprint)
    (fate : Fate) (sound : state.Sound) (goesOn : fate.outcome = .ok count) :
    (state.settle tenant fingerprint fate).processingOf other =
      if tenant = other then (state.processingOf tenant).erase fingerprint
      else state.processingOf other := by
  cases fate with
  | dropped => exact processingOf_removeProcessing state tenant other fingerprint sound
  | requeued task time =>
    exact processingOf_removeProcessing _ tenant other fingerprint
      (release_sound _ tenant (push_sound state tenant _ _ sound))
  | refused failure => simp [Fate.outcome] at goesOn
  | beyondCalendar => simp [Fate.outcome] at goesOn

theorem settle_stopped (state : QueueState) (tenant : Tenant) (fingerprint : Fingerprint) (fate : Fate)
    (stops : ∀ count, fate.outcome ≠ .ok count) : state.settle tenant fingerprint fate = state := by
  cases fate with
  | dropped => exact absurd rfl (stops 0)
  | requeued task time => exact absurd rfl (stops 1)
  | refused failure => rfl
  | beyondCalendar => rfl

theorem Delivers.sound (delivers : Delivers engine queue now entries state count last)
    (sound : state.Sound) : last.Sound := by
  induction delivers with
  | nil => exact sound
  | cons _ _ _ ih => exact ih (settle_sound _ _ _ _ sound)

theorem Delivers.processing (delivers : Delivers engine queue now entries state count last)
    (sound : state.Sound) (tenant : Tenant) (fingerprint : Fingerprint) :
    (last.processingOf tenant).score? fingerprint =
      if (tenant, fingerprint) ∈ entries then none
      else (state.processingOf tenant).score? fingerprint := by
  induction delivers with
  | nil => simp
  | @cons owner entry entries state last fate count others _ goesOn _ ih =>
    rw [ih (settle_sound _ _ _ _ sound), processingOf_settle _ _ _ _ _ sound goesOn]
    by_cases sameTenant : owner = tenant
    · subst sameTenant
      by_cases sameEntry : entry = fingerprint
      · simp [sameEntry]
      · simp [sameEntry, Ne.symm sameEntry]
    · simp [sameTenant, Ne.symm sameTenant]

theorem Delivers.processingOf_other (delivers : Delivers engine queue now entries state count last)
    (sound : state.Sound) (tenant : Tenant) (others : ∀ entry ∈ entries, entry.1 ≠ tenant) :
    last.processingOf tenant = state.processingOf tenant := by
  induction delivers with
  | nil => rfl
  | @cons owner entry entries state last fate count more _ goesOn _ ih =>
    obtain ⟨differ, rest⟩ := List.forall_mem_cons.mp others
    rw [ih (settle_sound _ _ _ _ sound) rest, processingOf_settle _ _ _ _ _ sound goesOn, if_neg differ]

theorem payloads_settle (state : QueueState) (tenant : Tenant) (fingerprint other : Fingerprint)
    (fate : Fate) (goesOn : fate.outcome = .ok count) :
    (state.settle tenant fingerprint fate).payloads.get? other =
      if fingerprint = other then none else state.payloads.get? other := by
  cases fate with
  | dropped => exact Table.get?_erase state.payloads fingerprint other
  | requeued task time => exact Table.get?_erase state.payloads fingerprint other
  | refused failure => simp [Fate.outcome] at goesOn
  | beyondCalendar => simp [Fate.outcome] at goesOn

theorem Delivers.payloads (delivers : Delivers engine queue now entries state count last)
    (fingerprint : Fingerprint) :
    last.payloads.get? fingerprint =
      if fingerprint ∈ entries.map Prod.snd then none
      else state.payloads.get? fingerprint := by
  induction delivers with
  | nil => simp
  | @cons owner entry entries state last fate count others _ goesOn _ ih =>
    rw [ih, payloads_settle _ _ _ _ _ goesOn]
    by_cases same : entry = fingerprint
    · simp only [List.map_cons, List.mem_cons, same, if_true, true_or, ite_self]
    · simp only [List.map_cons, List.mem_cons, same, Ne.symm same, if_false, false_or]

/-- A sweep registers nobody and dismisses nobody, if it comes to registered tenants only. -/
theorem Delivers.registered (delivers : Delivers engine queue now entries state count last)
    (registered : ∀ entry ∈ entries, (state.inFlight entry.1).isSome) (tenant : Tenant) :
    (last.inFlight tenant).isSome = (state.inFlight tenant).isSome := by
  induction delivers with
  | nil => rfl
  | @cons owner entry entries state last fate count others _ goesOn _ ih =>
    obtain ⟨here, rest⟩ := List.forall_mem_cons.mp registered
    have kept (other : Tenant) : ((state.settle owner entry fate).inFlight other).isSome =
        (state.inFlight other).isSome := by
      cases fate with
      | dropped => rfl
      | requeued task time =>
        change (((state.push owner _ _).release owner).inFlight other).isSome = _
        rw [inFlight_release]
        split
        · rename_i same
          exact same ▸ here.symm
        · rename_i differ
          rw [inFlight_push, if_neg differ]
      | refused failure => simp [Fate.outcome] at goesOn
      | beyondCalendar => simp [Fate.outcome] at goesOn
    rw [ih fun other listed => (kept other.1).trans (rest other listed), kept]

/-- A record that is pending stays so while entries have their turns. -/
theorem pending_settle (state : QueueState) (tenant other : Tenant) (fingerprint : Fingerprint)
    (fate : Fate) (record : Bytes) (pending : ((state.pendingOf other).score? record).isSome) :
    (((state.settle tenant fingerprint fate).pendingOf other).score? record).isSome := by
  cases fate with
  | requeued task time =>
    change (((state.push tenant _ _).pendingOf other).score? record).isSome
    rw [pendingOf_push]
    split
    · rename_i same
      subst same
      rw [ScoredSet.score?_insert]
      split
      · rfl
      · exact pending
    · exact pending
  | dropped => exact pending
  | refused failure => exact pending
  | beyondCalendar => exact pending

theorem Delivers.pending (delivers : Delivers engine queue now entries state count last)
    (tenant : Tenant) (record : Bytes) (pending : ((state.pendingOf tenant).score? record).isSome) :
    ((last.pendingOf tenant).score? record).isSome := by
  induction delivers with
  | nil => exact pending
  | cons _ _ _ ih => exact ih (pending_settle _ _ _ _ _ _ pending)

/-- The expired entries of tenants, in the order in which a sweep comes to them. -/
def expiredOf (state : QueueState) (now : Double) (registered : List (Tenant × Int)) :
    List (Tenant × Fingerprint) :=
  registered.flatMap fun entry =>
    (state.expiredProcessing entry.1 now).map fun fingerprint => (entry.1, fingerprint)

theorem expiredOf_congr (state next : QueueState) (now : Double) (registered : List (Tenant × Int))
    (same : ∀ entry ∈ registered, next.processingOf entry.1 = state.processingOf entry.1) :
    next.expiredOf now registered = state.expiredOf now registered := by
  induction registered with
  | nil => rfl
  | cons entry rest ih =>
    obtain ⟨here, others⟩ := List.forall_mem_cons.mp same
    simp only [expiredOf, List.flatMap_cons, expiredProcessing, here]
    exact congrArg _ (ih others)

/-- The turns of one tenant's entries leave those of the others as they were. -/
theorem Delivers.expiredOf_others {fingerprints : List Fingerprint} {tenant : Tenant}
    (delivers : Delivers engine queue now
      (fingerprints.map fun fingerprint => (tenant, fingerprint)) state count last)
    (sound : state.Sound) (time : Double) (registered : List (Tenant × Int))
    (fresh : tenant ∉ registered.map Prod.fst) :
    last.expiredOf time registered = state.expiredOf time registered := by
  apply expiredOf_congr
  intro other listed
  apply delivers.processingOf_other sound
  intro own member equal
  obtain ⟨_, _, rfl⟩ := List.mem_map.mp member
  have same : tenant = other.1 := equal
  exact fresh (same ▸ List.mem_map_of_mem listed)

end QueueState

end TenantQueue
