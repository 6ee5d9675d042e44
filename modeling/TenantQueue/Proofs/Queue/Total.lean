import TenantQueue.Proofs.Queue.Selection
import Mathlib.Algebra.BigOperators.Group.Finset.Basic
import Mathlib.Algebra.Order.BigOperators.Group.Finset

/-! The size of a queue is the number of pending records of all tenants, though only the registered
ones are asked: every tenant that has a record is registered. A serving takes one record away. -/
namespace TenantQueue

namespace QueueState

theorem size_eq_zero_iff (state : QueueState) (tenant : Tenant) :
    (state.pendingOf tenant).size = 0 ↔ ¬state.Waits tenant := by
  rw [not_waits_iff, ← ScoredSet.isEmpty_iff]
  exact List.length_eq_zero_iff.trans List.isEmpty_iff.symm

theorem mem_keys_of_waits (state : QueueState) (tenant : Tenant) (waits : state.Waits tenant) :
    tenant ∈ state.pending.keys := by
  by_contra absent
  have missing := (Table.get?_eq_none_iff state.pending tenant).mpr absent
  obtain ⟨record, present⟩ := waits
  simp [pendingOf, missing] at present

def pendingTotal (state : QueueState) : Nat :=
  ∑ tenant ∈ state.pending.keys.toFinset, (state.pendingOf tenant).size

theorem pendingTotal_eq_sum (state : QueueState) (tenants : Finset Tenant)
    (covers : ∀ tenant, state.Waits tenant → tenant ∈ tenants) :
    state.pendingTotal = ∑ tenant ∈ tenants, (state.pendingOf tenant).size := by
  have idle (tenant : Tenant) (absent : ¬state.Waits tenant) : (state.pendingOf tenant).size = 0 :=
    (size_eq_zero_iff state tenant).mpr absent
  -- Both sums are the one over the union: a tenant of only one side has no record.
  have kept : state.pendingTotal =
      ∑ tenant ∈ state.pending.keys.toFinset ∪ tenants, (state.pendingOf tenant).size := by
    apply Finset.sum_subset Finset.subset_union_left
    intro tenant _ outside
    apply idle tenant
    intro waits
    apply outside
    exact List.mem_toFinset.mpr (mem_keys_of_waits state tenant waits)
  rw [kept]
  symm
  apply Finset.sum_subset Finset.subset_union_right
  intro tenant _ outside
  exact idle tenant fun waits => outside (covers tenant waits)

theorem pendingTotal_eq_zero_iff (state : QueueState) :
    state.pendingTotal = 0 ↔ ∀ tenant, ¬state.Waits tenant := by
  unfold pendingTotal
  rw [Finset.sum_eq_zero_iff]
  constructor
  · intro nothing tenant waits
    have listed := List.mem_toFinset.mpr (mem_keys_of_waits state tenant waits)
    exact (size_eq_zero_iff state tenant).mp (nothing tenant listed) waits
  · intro nobody tenant _
    exact (size_eq_zero_iff state tenant).mpr (nobody tenant)

theorem Serves.pendingTotal {state next : QueueState} {tenant : Tenant} {record : Bytes}
    {count counted : Int} (sound : state.Sound)
    (serves : state.Serves next tenant record count counted) :
    next.pendingTotal + 1 = state.pendingTotal := by
  have listed : tenant ∈ state.pending.keys.toFinset :=
    List.mem_toFinset.mpr (mem_keys_of_waits state tenant serves.waits)
  have covers (other : Tenant) (waits : next.Waits other) :
      other ∈ state.pending.keys.toFinset := by
    by_cases same : other = tenant
    · exact same ▸ listed
    · refine List.mem_toFinset.mpr (mem_keys_of_waits state other ?_)
      simpa only [Waits, serves.kept other same] using waits
  have taken : (next.pendingOf tenant).size + 1 = (state.pendingOf tenant).size := by
    obtain ⟨score, first⟩ := serves.first
    rw [serves.taken]
    exact ScoredSet.size_erase _ record score (sound.pendingInStep tenant) first.1
  have others : ∑ other ∈ state.pending.keys.toFinset.erase tenant, (next.pendingOf other).size =
      ∑ other ∈ state.pending.keys.toFinset.erase tenant, (state.pendingOf other).size := by
    apply Finset.sum_congr rfl
    intro other member
    rw [serves.kept other (Finset.ne_of_mem_erase member)]
  have before := Finset.add_sum_erase _ (fun other => (state.pendingOf other).size) listed
  have after := Finset.add_sum_erase _ (fun other => (next.pendingOf other).size) listed
  have total : state.pendingTotal =
      ∑ other ∈ state.pending.keys.toFinset, (state.pendingOf other).size := rfl
  rw [pendingTotal_eq_sum next _ covers, total, ← before, ← after, others]
  omega

/-- The registry read as tenants with their counts. -/
theorem exists_entries (state : QueueState) (sound : state.Sound) :
    ∃ entries : List (Tenant × Int),
      state.registry.toList = entries.map fun entry => (entry.2, entry.1.name) := by
  have named : ∀ entry ∈ state.registry.toList,
      ∃ read : Tenant × Int, (read.2, read.1.name) = entry := by
    rintro ⟨count, member⟩ listed
    have found := (sound.registryInStep.agree member count).mp listed
    obtain ⟨tenant, rfl⟩ := sound.named member count found
    exact ⟨(tenant, count), rfl⟩
  revert named
  generalize state.registry.toList = list
  intro named
  induction list with
  | nil => exact ⟨[], rfl⟩
  | cons entry rest ih =>
    obtain ⟨read, same⟩ := named entry (List.mem_cons_self ..)
    obtain ⟨entries, others⟩ := ih fun other member => named other (List.mem_cons_of_mem _ member)
    exact ⟨read :: entries, by rw [List.map_cons, same, others]⟩

theorem mem_entries (state : QueueState) (entries : List (Tenant × Int)) (sound : state.Sound)
    (read : state.registry.toList = entries.map fun entry => (entry.2, entry.1.name))
    (tenant : Tenant) (count : Int) :
    (tenant, count) ∈ entries ↔ state.inFlight tenant = some count := by
  rw [inFlight, ← sound.registryInStep.agree, ← ScoredSet.toList, read, List.mem_map]
  constructor
  · intro member
    exact ⟨(tenant, count), member, rfl⟩
  · rintro ⟨⟨other, otherCount⟩, member, same⟩
    simp only [Prod.mk.injEq, Tenant.name_inj] at same
    obtain ⟨rfl, rfl⟩ := same
    exact member

theorem members_eq (state : QueueState) (entries : List (Tenant × Int))
    (read : state.registry.toList = entries.map fun entry => (entry.2, entry.1.name)) :
    state.registry.members = (entries.map Prod.fst).map Tenant.name := by
  rw [ScoredSet.members, ← ScoredSet.toList, read, List.map_map, List.map_map]
  rfl

theorem entries_nodup (state : QueueState) (entries : List (Tenant × Int)) (sound : state.Sound)
    (read : state.registry.toList = entries.map fun entry => (entry.2, entry.1.name)) :
    (entries.map Prod.fst).Nodup := by
  have distinct := ScoredSet.members_nodup _ sound.registryInStep
  rw [members_eq state entries read] at distinct
  exact List.Nodup.of_map _ distinct

theorem activeTenants_eq (state : QueueState) (entries : List (Tenant × Int))
    (read : state.registry.toList = entries.map fun entry => (entry.2, entry.1.name)) :
    state.activeTenants = .ok entries := by
  unfold activeTenants
  rw [read]
  clear read
  induction entries with
  | nil => rfl
  | cons entry rest ih =>
    rw [List.map_cons, List.mapM_cons, ih, registered_name]
    rfl

private theorem foldlM_size (state : QueueState) (tenants : List Tenant) (total : Nat)
    (distinct : tenants.Nodup) :
    (tenants.map Tenant.name).foldlM (fun sum member => do
        let tenant ← registered member
        return sum + (state.pendingOf tenant).size) total =
      (Except.ok (total + ∑ tenant ∈ tenants.toFinset, (state.pendingOf tenant).size) :
        Except Failure Nat) := by
  induction tenants generalizing total with
  | nil => rfl
  | cons tenant rest ih =>
    obtain ⟨fresh, tail⟩ := List.nodup_cons.mp distinct
    have absent : tenant ∉ rest.toFinset := mt List.mem_toFinset.mp fresh
    rw [List.toFinset_cons, Finset.sum_insert absent, ← Nat.add_assoc, List.map_cons,
      List.foldlM_cons, registered_name]
    exact ih _ tail

/-- The size of a queue counts the pending records of all tenants. -/
theorem size_eq_pendingTotal (state : QueueState) (sound : state.Sound) :
    state.size = .ok state.pendingTotal := by
  obtain ⟨entries, read⟩ := exists_entries state sound
  have distinct := entries_nodup state entries sound read
  have covers (tenant : Tenant) (waits : state.Waits tenant) :
      tenant ∈ (entries.map Prod.fst).toFinset := by
    obtain ⟨count, found⟩ := Option.isSome_iff_exists.mp (sound.registered tenant waits)
    have member := (mem_entries state entries sound read tenant count).mpr found
    exact List.mem_toFinset.mpr (List.mem_map_of_mem member)
  rw [size, members_eq state entries read, foldlM_size state _ 0 distinct, Nat.zero_add,
    pendingTotal_eq_sum state _ covers]

end QueueState
end TenantQueue
