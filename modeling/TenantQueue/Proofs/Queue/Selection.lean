import TenantQueue.Engine.Basic
import TenantQueue.Proofs.Program
import TenantQueue.Proofs.Queue.Calls

/-! Which record is served next. It is the first record of the tenant that comes first, by its
count and then by its name, among all that have a pending record. The idle tenants registered
before that one leave the registry, and nothing else changes. -/
namespace TenantQueue

namespace QueueState

def Before (state : QueueState) (first second : Tenant) : Prop :=
  ∃ firstCount secondCount, state.inFlight first = some firstCount ∧
    state.inFlight second = some secondCount ∧
    ScoredSet.precedence (firstCount, first.name) (secondCount, second.name) = .lt

/-- A record of a tenant is taken, and the tenant's count goes from one number to another. -/
structure Serves (state next : QueueState) (tenant : Tenant) (record : Bytes)
    (count counted : Int) : Prop where
  registered : state.inFlight tenant = some count
  least : ∀ other, state.Waits other → ∃ otherCount, state.inFlight other = some otherCount ∧
    (ScoredSet.precedence (count, tenant.name) (otherCount, other.name)).isLE
  first : ∃ score, (state.pendingOf tenant).IsFirst score record
  taken : next.pendingOf tenant = (state.pendingOf tenant).erase record
  kept : ∀ other, other ≠ tenant → next.pendingOf other = state.pendingOf other
  counted : next.inFlight tenant = some counted
  dismissed : ∀ other, ¬state.Waits other → state.Before other tenant → next.inFlight other = none
  unmoved : ∀ other, other ≠ tenant → ¬(¬state.Waits other ∧ state.Before other tenant) →
    next.inFlight other = state.inFlight other
  processing : next.processing = state.processing
  payloads : next.payloads = state.payloads

structure Clears (state next : QueueState) : Prop where
  registry : next.registry = ScoredSet.empty
  pending : ∀ tenant, next.pendingOf tenant = state.pendingOf tenant
  processing : next.processing = state.processing
  payloads : next.payloads = state.payloads

theorem Serves.waits {state next : QueueState} {tenant : Tenant} {record : Bytes}
    {count counted : Int} (serves : state.Serves next tenant record count counted) :
    state.Waits tenant := by
  obtain ⟨score, first⟩ := serves.first
  exact ⟨record, Option.isSome_of_eq_some first.1⟩

theorem Serves.inFlight_cases {state next : QueueState} {tenant : Tenant} {record : Bytes}
    {count counted : Int} (serves : state.Serves next tenant record count counted) (other : Tenant)
    (differ : other ≠ tenant) :
    next.inFlight other = state.inFlight other ∨ next.inFlight other = none := by
  by_cases passed : ¬state.Waits other ∧ state.Before other tenant
  · exact Or.inr (serves.dismissed other passed.1 passed.2)
  · exact Or.inl (serves.unmoved other differ passed)

theorem waits_dismiss (state : QueueState) (idle tenant : Tenant) (sound : state.Sound)
    (drained : ¬state.Waits idle) : (state.dismiss idle).Waits tenant ↔ state.Waits tenant := by
  simp only [Waits, pendingOf_dismiss state idle tenant sound drained]

theorem serve_serves (state : QueueState) (tenant : Tenant) (record : Bytes) (count : Int)
    (score : Double) (sound : state.Sound) (leading : state.registry.IsFirst count tenant.name)
    (first : (state.pendingOf tenant).IsFirst score record) :
    state.Serves (state.serve tenant record) tenant record count (count + 1) where
  registered := leading.1
  least other waits := by
    obtain ⟨otherCount, found⟩ := Option.isSome_iff_exists.mp (sound.registered other waits)
    exact ⟨otherCount, found, leading.2 otherCount other.name found⟩
  first := ⟨score, first⟩
  taken := by
    rw [pendingOf_serve state tenant tenant record sound, if_pos rfl]
  kept other differ := by
    rw [pendingOf_serve state tenant other record sound, if_neg (Ne.symm differ)]
  counted := by
    have registered : state.inFlight tenant = some count := leading.1
    simp [registered]
  dismissed other _ before := by
    obtain ⟨otherCount, same, found, registered, less⟩ := before
    have registered' : state.inFlight tenant = some count := leading.1
    rw [registered', Option.some.injEq] at registered
    subst registered
    have order := leading.2 otherCount other.name found
    rw [Std.OrientedCmp.gt_of_lt less] at order
    contradiction
  unmoved other differ _ := by
    rw [inFlight_serve, if_neg (Ne.symm differ)]
  processing := rfl
  payloads := rfl

theorem Serves.of_dismiss {state next : QueueState} {idle tenant : Tenant} {record : Bytes}
    {idleCount count counted : Int} (sound : state.Sound)
    (leading : state.registry.IsFirst idleCount idle.name) (drained : ¬state.Waits idle)
    (serves : (state.dismiss idle).Serves next tenant record count counted) :
    state.Serves next tenant record count counted := by
  have waits_iff (other : Tenant) := waits_dismiss state idle other sound drained
  have pending (other : Tenant) := pendingOf_dismiss state idle other sound drained
  have inFlight (other : Tenant) (differ : other ≠ idle) :
      (state.dismiss idle).inFlight other = state.inFlight other := by
    rw [inFlight_dismiss, if_neg (Ne.symm differ)]
  have waits : state.Waits tenant := (waits_iff tenant).mp serves.waits
  have busy : tenant ≠ idle := by
    rintro rfl
    exact drained waits
  have registered : state.inFlight tenant = some count := by
    rw [← inFlight tenant busy]
    exact serves.registered
  have before_iff (other : Tenant) (differ : other ≠ idle) :
      (state.dismiss idle).Before other tenant ↔ state.Before other tenant := by
    simp only [Before, inFlight other differ, inFlight tenant busy]
  -- The idle tenant comes first of all, so it stands before the one that is served.
  have before : state.Before idle tenant := by
    refine ⟨idleCount, count, leading.1, registered, ?_⟩
    have order := leading.2 count tenant.name registered
    rcases Ordering.isLE_iff_eq_lt_or_eq_eq.mp order with less | same
    · exact less
    · have names : idle.name = tenant.name :=
        congrArg Prod.snd (Std.LawfulEqCmp.eq_of_compare same)
      exact absurd (Tenant.name_injective names).symm busy
  exact {
    registered := registered
    least := by
      intro other otherWaits
      obtain ⟨otherCount, found, order⟩ := serves.least other ((waits_iff other).mpr otherWaits)
      have differ : other ≠ idle := by
        rintro rfl
        exact drained otherWaits
      rw [inFlight other differ] at found
      exact ⟨otherCount, found, order⟩
    first := by
      rw [← pending tenant]
      exact serves.first
    taken := by
      rw [serves.taken, pending tenant]
    kept := by
      intro other differ
      rw [serves.kept other differ, pending other]
    counted := serves.counted
    dismissed := by
      intro other otherIdle otherBefore
      by_cases same : other = idle
      · subst same
        have gone : (state.dismiss other).inFlight other = none := by simp
        rw [serves.unmoved other (Ne.symm busy), gone]
        rintro ⟨_, _, _, found, _⟩
        rw [gone] at found
        contradiction
      · exact serves.dismissed other (mt (waits_iff other).mp otherIdle)
          ((before_iff other same).mpr otherBefore)
    unmoved := by
      intro other differ stays
      have otherBusy : other ≠ idle := by
        rintro rfl
        exact stays ⟨drained, before⟩
      rw [serves.unmoved other differ, inFlight other otherBusy]
      rw [waits_iff other, before_iff other otherBusy]
      exact stays
    processing := serves.processing
    payloads := serves.payloads }

theorem Serves.release {state next : QueueState} {tenant : Tenant} {record : Bytes} {count : Int}
    (sound : state.Sound) (serves : state.Serves next tenant record count (count + 1)) :
    state.Serves (next.release tenant) tenant record count count where
  registered := serves.registered
  least := serves.least
  first := serves.first
  taken := serves.taken
  kept := serves.kept
  counted := by
    have positive := sound.counted tenant count serves.registered
    have lowered : max (count + 1 - 1) 0 = count := by omega
    rw [inFlight_release, if_pos rfl, serves.counted, Option.getD_some, lowered]
  dismissed other idle before := by
    have gone := serves.dismissed other idle before
    have differ : tenant ≠ other := by
      rintro rfl
      rw [serves.counted] at gone
      contradiction
    rw [inFlight_release, if_neg differ]
    exact gone
  unmoved other differ stays := by
    rw [inFlight_release, if_neg (Ne.symm differ)]
    exact serves.unmoved other differ stays
  processing := serves.processing
  payloads := serves.payloads

theorem Clears.of_dismiss {state next : QueueState} {idle : Tenant} (sound : state.Sound)
    (drained : ¬state.Waits idle) (clears : (state.dismiss idle).Clears next) :
    state.Clears next where
  registry := clears.registry
  pending tenant := by
    rw [clears.pending tenant, pendingOf_dismiss state idle tenant sound drained]
  processing := clears.processing
  payloads := clears.payloads

theorem clears_self (state : QueueState) (sound : state.Sound)
    (nobody : ∀ tenant, state.inFlight tenant = none) : state.Clears state where
  registry := by
    refine ScoredSet.eq_empty_of_isEmpty _ sound.registryInStep
      ((ScoredSet.isEmpty_iff _).mpr fun member => ?_)
    cases found : state.registry.score? member with
    | none => rfl
    | some count =>
      obtain ⟨tenant, rfl⟩ := sound.named member count found
      have absent : state.registry.score? tenant.name = none := nobody tenant
      rw [absent] at found
      contradiction
  pending _ := rfl
  processing := rfl
  payloads := rfl

def Selects (state next : QueueState) : Option (Tenant × Bytes) → Prop
  | none => (∀ tenant, ¬state.Waits tenant) ∧ state.Clears next
  | some (tenant, record) => ∃ count, state.Serves next tenant record count (count + 1)

theorem Selects.of_dismiss {state next : QueueState} {idle : Tenant} {idleCount : Int}
    {found : Option (Tenant × Bytes)} (sound : state.Sound)
    (leading : state.registry.IsFirst idleCount idle.name) (drained : ¬state.Waits idle)
    (selects : (state.dismiss idle).Selects next found) : state.Selects next found := by
  cases found with
  | none =>
    obtain ⟨nobody, clears⟩ := selects
    refine ⟨?_, clears.of_dismiss sound drained⟩
    intro tenant waits
    exact nobody tenant ((waits_dismiss state idle tenant sound drained).mpr waits)
  | some pair =>
    obtain ⟨count, serves⟩ := selects
    exact ⟨count, serves.of_dismiss sound leading drained⟩

theorem size_dismiss (state : QueueState) (idle : Tenant) (idleCount : Int) (sound : state.Sound)
    (leading : state.registry.IsFirst idleCount idle.name) :
    (state.dismiss idle).registry.size + 1 = state.registry.size :=
  ScoredSet.size_erase state.registry idle.name idleCount sound.registryInStep leading.1

end QueueState

open Program QueueState

/-- A serving ends with the record that comes next. It dismisses registered tenants only, and
leaves the other queues alone. -/
theorem MemoryStore.popUntil_selects (store : MemoryStore) (queue : String) (sound : store.Sound) :
    ∃ found notices next,
      popUntil backend queue store = (.ok found, notices, next) ∧
      notices.length ≤ (store.queue queue).registry.size ∧
      (∀ other, other ≠ queue → next.queue other = store.queue other) ∧
      (store.queue queue).Selects (next.queue queue) found := by
  -- By induction over the drained pops: the rest of the serving starts from a sound store again.
  induction store using popInduction backend queue with
  | step store ih =>
    have performed : backend.perform (.pop queue) store =
        (Outcome.ofExcept (store.perform (.pop queue)).1, (store.perform (.pop queue)).2) := rfl
    rw [popUntil_eq]
    rcases perform_pop_cases store queue sound with
      ⟨popped, nobody⟩ | ⟨tenant, count, leading, ⟨record, score, first, popped⟩ | ⟨drained, popped⟩⟩
    · rw [popped] at performed
      rw [performed]
      refine ⟨none, [], store, rfl, Nat.zero_le _, fun _ _ => rfl, ?_,
        clears_self _ (sound queue) nobody⟩
      intro tenant waits
      have registered := (sound queue).registered tenant waits
      rw [nobody tenant] at registered
      contradiction
    · rw [popped] at performed
      rw [performed]
      refine ⟨some (tenant, record), [], _, rfl, Nat.zero_le _, ?_, count, ?_⟩
      · intro other differ
        rw [queue_setQueue_eq, if_neg (Ne.symm differ)]
      · rw [queue_setQueue_eq, if_pos rfl]
        exact serve_serves _ tenant record count score (sound queue) leading first
    · have kept := perform_sound store (.pop queue) sound
      rw [popped] at performed kept
      obtain ⟨found, notices, next, ran, short, frame, selects⟩ := ih tenant _ performed kept
      rw [queue_setQueue_eq, if_pos rfl] at short selects
      have smaller := size_dismiss _ tenant count (sound queue) leading
      rw [performed]
      simp only [Outcome.ofExcept, ran]
      refine ⟨found, _, next, rfl, ?_, ?_, selects.of_dismiss (sound queue) leading drained⟩
      · rw [List.length_cons]
        omega
      · intro other differ
        rw [frame other differ, queue_setQueue_eq, if_neg (Ne.symm differ)]

end TenantQueue
