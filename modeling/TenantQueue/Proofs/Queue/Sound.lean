import TenantQueue.Proofs.ScoredSet
import TenantQueue.Proofs.Tenant
import TenantQueue.Store.Backend

/-! What every call keeps of a queue: its sets stay in step, its registry holds names of tenants
with counts that are not negative, and each tenant with a pending record is registered. The
effect of a call is told by the pending sets and the counts before and after it. -/
namespace TenantQueue

namespace QueueState

def Waits (state : QueueState) (tenant : Tenant) : Prop :=
  ∃ record, ((state.pendingOf tenant).score? record).isSome

structure Sound (state : QueueState) : Prop where
  pendingInStep : ∀ tenant, (state.pendingOf tenant).InStep
  processingInStep : ∀ tenant, (state.processingOf tenant).InStep
  registryInStep : state.registry.InStep
  named : ∀ member count, state.registry.score? member = some count →
    ∃ tenant, Tenant.name tenant = member
  counted : ∀ tenant count, state.inFlight tenant = some count → 0 ≤ count
  registered : ∀ tenant, state.Waits tenant → (state.inFlight tenant).isSome

theorem empty_sound : empty.Sound where
  pendingInStep _ := ScoredSet.empty_inStep
  processingInStep _ := ScoredSet.empty_inStep
  registryInStep := ScoredSet.empty_inStep
  named member count found := by simp [empty] at found
  counted tenant count found := by simp [inFlight, empty] at found
  registered tenant waits := by
    obtain ⟨record, present⟩ := waits
    simp [pendingOf, empty] at present

theorem Sound.getD_inFlight {state : QueueState} (sound : state.Sound) (tenant : Tenant) :
    0 ≤ (state.inFlight tenant).getD 0 := by
  cases found : state.inFlight tenant with
  | none => exact Int.le_refl 0
  | some count => exact sound.counted tenant count found

theorem not_waits_iff (state : QueueState) (tenant : Tenant) :
    ¬state.Waits tenant ↔ ∀ record, (state.pendingOf tenant).score? record = none := by
  simp [Waits]

/-- A queue stays sound when one tenant is given a count and no other comes to wait. -/
theorem Sound.of_count {state next : QueueState} {tenant : Tenant} {count : Int}
    (sound : state.Sound) (pendingInStep : ∀ other, (next.pendingOf other).InStep)
    (processing : next.processing = state.processing) (registryInStep : next.registry.InStep)
    (positive : 0 ≤ count)
    (counts : ∀ member, next.registry.score? member =
      if tenant.name = member then some count else state.registry.score? member)
    (waits : ∀ other, tenant ≠ other → next.Waits other → state.Waits other) : next.Sound where
  pendingInStep := pendingInStep
  processingInStep other := by
    rw [processingOf, processing]
    exact sound.processingInStep other
  registryInStep := registryInStep
  named member memberCount found := by
    rw [counts] at found
    split at found
    · rename_i same
      exact ⟨tenant, same⟩
    · exact sound.named member memberCount found
  counted other otherCount found := by
    rw [inFlight, counts] at found
    split at found
    · exact Option.some.inj found ▸ positive
    · exact sound.counted other otherCount found
  registered other otherWaits := by
    rw [inFlight, counts]
    split
    · rfl
    · rename_i differ
      exact sound.registered other (waits other (mt (congrArg Tenant.name) differ) otherWaits)

theorem get?_keepNonempty {κ σ μ : Type} [DecidableEq κ] [DecidableEq μ] [Ord σ] [Ord μ]
    (table : Table κ (ScoredSet σ μ)) (key other : κ) (set : ScoredSet σ μ) (inStep : set.InStep) :
    ((keepNonempty table key set).get? other).getD ScoredSet.empty =
      if key = other then set else (table.get? other).getD ScoredSet.empty := by
  unfold keepNonempty
  by_cases same : key = other
  · cases none_left : set.isEmpty with
    | true => simp [same, ScoredSet.eq_empty_of_isEmpty set inStep none_left]
    | false => simp [same]
  · cases set.isEmpty <;> simp [same]

@[simp] theorem pendingOf_push (state : QueueState) (tenant other : Tenant) (record : Bytes)
    (score : Double) :
    (state.push tenant record score).pendingOf other =
      if tenant = other then (state.pendingOf tenant).insert record score
      else state.pendingOf other := by
  by_cases same : tenant = other <;> simp [push, pendingOf, same]

theorem score?_push (state : QueueState) (tenant : Tenant) (record : Bytes) (score : Double)
    (member : String) :
    (state.push tenant record score).registry.score? member =
      if tenant.name = member then some ((state.inFlight tenant).getD 0)
      else state.registry.score? member :=
  ScoredSet.score?_insertIfNew state.registry tenant.name member 0

@[simp] theorem inFlight_push (state : QueueState) (tenant other : Tenant) (record : Bytes)
    (score : Double) :
    (state.push tenant record score).inFlight other =
      if tenant = other then some ((state.inFlight tenant).getD 0) else state.inFlight other := by
  simp [inFlight, score?_push]

theorem push_sound (state : QueueState) (tenant : Tenant) (record : Bytes) (score : Double)
    (sound : state.Sound) : (state.push tenant record score).Sound := by
  refine sound.of_count ?_ rfl (ScoredSet.insertIfNew_inStep _ _ _ sound.registryInStep)
    (sound.getD_inFlight tenant) (score?_push state tenant record score) ?_
  · intro other
    rw [pendingOf_push]
    split
    · exact ScoredSet.insert_inStep _ _ _ (sound.pendingInStep tenant)
    · exact sound.pendingInStep other
  · intro other differ waits
    simpa [Waits, differ] using waits

@[simp] theorem pendingOf_release (state : QueueState) (tenant other : Tenant) :
    (state.release tenant).pendingOf other = state.pendingOf other := rfl

theorem score?_release (state : QueueState) (tenant : Tenant) (member : String) :
    (state.release tenant).registry.score? member =
      if tenant.name = member then some (max ((state.inFlight tenant).getD 0 - 1) 0)
      else state.registry.score? member := by
  have count : (state.registry.increase tenant.name (-1)).1 =
      (state.inFlight tenant).getD 0 + -1 := rfl
  simp only [release, count]
  by_cases below : (state.inFlight tenant).getD 0 + -1 < 0
  · have floor : max ((state.inFlight tenant).getD 0 - 1) 0 = 0 := by omega
    rw [if_pos below, ScoredSet.score?_insert, ScoredSet.score?_increase, floor]
    split <;> rfl
  · have lowered : max ((state.inFlight tenant).getD 0 - 1) 0 =
        (state.inFlight tenant).getD 0 + -1 := by omega
    rw [if_neg below, ScoredSet.score?_increase, lowered]
    rfl

@[simp] theorem inFlight_release (state : QueueState) (tenant other : Tenant) :
    (state.release tenant).inFlight other =
      if tenant = other then some (max ((state.inFlight tenant).getD 0 - 1) 0)
      else state.inFlight other := by
  simp [inFlight, score?_release]

theorem release_sound (state : QueueState) (tenant : Tenant) (sound : state.Sound) :
    (state.release tenant).Sound := by
  refine sound.of_count sound.pendingInStep rfl ?_ (Int.le_max_right _ _)
    (score?_release state tenant) fun _ _ waits => waits
  have lowered := ScoredSet.increase_inStep state.registry tenant.name (-1) sound.registryInStep
  simp only [release]
  split
  · exact ScoredSet.insert_inStep _ _ _ lowered
  · exact lowered

def serve (state : QueueState) (tenant : Tenant) (record : Bytes) : QueueState :=
  { state with
    pending := keepNonempty state.pending tenant ((state.pendingOf tenant).erase record)
    registry := (state.registry.increase tenant.name 1).2 }

def dismiss (state : QueueState) (tenant : Tenant) : QueueState :=
  { state with
    pending := state.pending.erase tenant
    registry := state.registry.erase tenant.name }

theorem pendingOf_serve (state : QueueState) (tenant other : Tenant) (record : Bytes)
    (sound : state.Sound) :
    (state.serve tenant record).pendingOf other =
      if tenant = other then (state.pendingOf tenant).erase record else state.pendingOf other :=
  get?_keepNonempty state.pending tenant other _
    (ScoredSet.erase_inStep _ record (sound.pendingInStep tenant))

theorem score?_serve (state : QueueState) (tenant : Tenant) (record : Bytes) (member : String) :
    (state.serve tenant record).registry.score? member =
      if tenant.name = member then some ((state.inFlight tenant).getD 0 + 1)
      else state.registry.score? member :=
  ScoredSet.score?_increase state.registry tenant.name member 1

@[simp] theorem inFlight_serve (state : QueueState) (tenant other : Tenant) (record : Bytes) :
    (state.serve tenant record).inFlight other =
      if tenant = other then some ((state.inFlight tenant).getD 0 + 1)
      else state.inFlight other := by
  simp [inFlight, score?_serve]

theorem serve_sound (state : QueueState) (tenant : Tenant) (record : Bytes) (sound : state.Sound) :
    (state.serve tenant record).Sound := by
  have positive := sound.getD_inFlight tenant
  refine sound.of_count ?_ rfl (ScoredSet.increase_inStep _ _ _ sound.registryInStep) (by omega)
    (score?_serve state tenant record) ?_
  · intro other
    rw [pendingOf_serve state tenant other record sound]
    split
    · exact ScoredSet.erase_inStep _ record (sound.pendingInStep tenant)
    · exact sound.pendingInStep other
  · intro other differ waits
    simpa [Waits, pendingOf_serve state tenant other record sound, differ] using waits

theorem pendingOf_dismiss (state : QueueState) (tenant other : Tenant) (sound : state.Sound)
    (drained : ¬state.Waits tenant) : (state.dismiss tenant).pendingOf other = state.pendingOf other := by
  by_cases same : tenant = other
  · subst same
    have absent := (not_waits_iff state tenant).mp drained
    have nothing := ScoredSet.eq_empty_of_isEmpty _ (sound.pendingInStep tenant)
      ((ScoredSet.isEmpty_iff _).mpr absent)
    rw [nothing]
    simp [dismiss, pendingOf]
  · simp [dismiss, pendingOf, same]

@[simp] theorem inFlight_dismiss (state : QueueState) (tenant other : Tenant) :
    (state.dismiss tenant).inFlight other =
      if tenant = other then none else state.inFlight other := by
  simp [dismiss, inFlight]

theorem dismiss_sound (state : QueueState) (tenant : Tenant) (sound : state.Sound)
    (drained : ¬state.Waits tenant) : (state.dismiss tenant).Sound where
  pendingInStep other := by
    rw [pendingOf_dismiss state tenant other sound drained]
    exact sound.pendingInStep other
  processingInStep := sound.processingInStep
  registryInStep := ScoredSet.erase_inStep _ _ sound.registryInStep
  named member count found := by
    simp only [dismiss, ScoredSet.score?_erase] at found
    split at found
    · contradiction
    · exact sound.named member count found
  counted other count found := by
    rw [inFlight_dismiss] at found
    split at found
    · contradiction
    · exact sound.counted other count found
  registered other waits := by
    have before : state.Waits other := by
      simpa [Waits, pendingOf_dismiss state tenant other sound drained] using waits
    rw [inFlight_dismiss]
    split
    · rename_i same
      subst same
      exact absurd before drained
    · exact sound.registered other before

theorem registered_name (tenant : Tenant) : registered tenant.name = .ok tenant := by
  simp [registered, Tenant.ofName?_name]

/-- What a pop can do: find no tenant registered, take the first record of the first registered
tenant, or dismiss that tenant for having none. -/
theorem pop_cases (state : QueueState) (sound : state.Sound) :
    (state.pop = .ok (.empty, state) ∧ ∀ tenant, state.inFlight tenant = none) ∨
    ∃ tenant count, state.registry.IsFirst count tenant.name ∧
      ((∃ record score, (state.pendingOf tenant).IsFirst score record ∧
          state.pop = .ok (.popped tenant record, state.serve tenant record)) ∨
        (¬state.Waits tenant ∧ state.pop = .ok (.drained tenant, state.dismiss tenant))) := by
  unfold pop
  cases first : state.registry.popFirst? with
  | none =>
    left
    refine ⟨rfl, ?_⟩
    intro tenant
    exact (ScoredSet.popFirst?_eq_none_iff _ sound.registryInStep).mp first tenant.name
  | some popped =>
    right
    obtain ⟨member, others⟩ := popped
    obtain ⟨erased, count, least⟩ :=
      ScoredSet.popFirst?_eq_some _ _ _ sound.registryInStep first
    obtain ⟨tenant, rfl⟩ := sound.named member count least.1
    refine ⟨tenant, count, least, ?_⟩
    simp only [registered_name, popFrom, bind, Except.bind, pure, Except.pure]
    cases taken : (state.pendingOf tenant).popFirst? with
    | none =>
      right
      refine ⟨?_, ?_⟩
      · exact (not_waits_iff state tenant).mpr
          ((ScoredSet.popFirst?_eq_none_iff _ (sound.pendingInStep tenant)).mp taken)
      · subst erased
        rfl
    | some pair =>
      left
      obtain ⟨record, rest⟩ := pair
      obtain ⟨left_over, score, lowest⟩ :=
        ScoredSet.popFirst?_eq_some _ _ _ (sound.pendingInStep tenant) taken
      refine ⟨record, score, lowest, ?_⟩
      subst left_over
      rfl

end QueueState
end TenantQueue
