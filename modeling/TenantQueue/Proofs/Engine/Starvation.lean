import TenantQueue.Proofs.Engine.TasksOut

/-! Who is served while a tenant waits with nothing in flight. Only tenants can be that have nothing
in flight either and whose names come first, so each is served at most once more than its tasks are
completed. Completions bring a count back to zero, so nothing bounds the servings but them. -/
namespace TenantQueue

namespace QueueState
variable {state next : QueueState} {first tenant : Tenant} {record : Bytes} {count counted : Int}

/-- Where a tenant waits with nothing in flight, so has whoever is served. -/
theorem Serves.count_eq_zero (serves : state.Serves next first record count counted)
    (sound : state.Sound) (waits : state.Waits tenant) (idle : state.inFlight tenant = some 0) :
    count = 0 := by
  obtain ⟨otherCount, registered, order⟩ := serves.least tenant waits
  rw [idle, Option.some.injEq] at registered
  subst registered
  have small : count ≤ 0 := ScoredSet.score_le_of_precedence order
  exact Int.le_antisymm small (sound.counted first count serves.registered)

theorem Serves.name_lt (serves : state.Serves next first record 0 counted)
    (waits : state.Waits tenant) (idle : state.inFlight tenant = some 0) (differ : first ≠ tenant) :
    compare first.name tenant.name = .lt := by
  obtain ⟨otherCount, registered, order⟩ := serves.least tenant waits
  rw [idle, Option.some.injEq] at registered
  subst registered
  cases names : compare first.name tenant.name with
  | lt => rfl
  | eq => exact absurd (Tenant.name_injective (Std.LawfulEqOrd.eq_of_compare names)) differ
  | gt => simp [ScoredSet.precedence, names] at order

/-- Whoever is dismissed stands before the tenant served, and had nothing in flight if that one had
nothing. -/
theorem Serves.getD_inFlight (serves : state.Serves next first record 0 counted)
    (sound : state.Sound) (differ : tenant ≠ first) :
    (next.inFlight tenant).getD 0 = (state.inFlight tenant).getD 0 := by
  by_cases passed : ¬state.Waits tenant ∧ state.Before tenant first
  · obtain ⟨otherCount, servedCount, found, registered, before⟩ := passed.2
    rw [serves.registered, Option.some.injEq] at registered
    subst registered
    have small : otherCount ≤ 0 := ScoredSet.score_le_of_precedence (Ordering.isLE_of_eq_lt before)
    have zero : otherCount = 0 := Int.le_antisymm small (sound.counted tenant otherCount found)
    rw [serves.dismissed tenant passed.1 passed.2, found, zero, Option.getD_none, Option.getD_some]
  · rw [serves.unmoved tenant differ passed]

end QueueState

namespace TasksOut

def servedBy (queue : String) (state : TasksOut) : QueueUse → List Tenant
  | .next => state.served queue
  | _ => []

def completedBy (state : TasksOut) : QueueUse → List Tenant
  | .complete place => state.completedAt place
  | _ => []

def servings (engine : Engine) (queue : String) : TasksOut → List QueueUse → List Tenant
  | _, [] => []
  | state, use :: rest =>
    state.servedBy queue use ++
      servings engine queue (state.step engine queue (use.storeUse queue)) rest

def completions (engine : Engine) (queue : String) : TasksOut → List QueueUse → List Tenant
  | _, [] => []
  | state, use :: rest =>
    state.completedBy use ++
      completions engine queue (state.step engine queue (use.storeUse queue)) rest

/-- At every serving the tenant waits with nothing in flight, and another is served. -/
def Neglected (engine : Engine) (queue : String) (tenant : Tenant) : TasksOut → List QueueUse → Prop
  | _, [] => True
  | state, use :: rest =>
    (use = .next → (state.store.queue queue).Waits tenant ∧
      (state.store.queue queue).inFlight tenant = some 0 ∧ tenant ∉ state.served queue) ∧
    Neglected engine queue tenant (state.step engine queue (use.storeUse queue)) rest

/-- Where a tenant waits with nothing in flight, whoever is served before it has nothing in flight and a
name that comes first. All others are counted as before. -/
theorem counted_next_of_idle (engine : Engine) (queue : String) (state : TasksOut) (tenant : Tenant)
    (sound : state.store.Sound) (waits : (state.store.queue queue).Waits tenant)
    (idle : (state.store.queue queue).inFlight tenant = some 0)
    (another : tenant ∉ state.served queue) :
    (∀ other ∈ state.served queue,
      state.counted queue other = 0 ∧ compare other.name tenant.name = .lt) ∧
    ∀ other, (state.step engine queue (.ask (.next queue))).counted queue other =
      state.counted queue other + (state.served queue).count other := by
  simp only [served, counted, step, Engine.perform] at another ⊢
  rcases state.store.next_hands queue sound with
    ⟨_, _, nobody, _⟩ | ⟨first, record, count, _, ended⟩
  · exact absurd waits (nobody tenant)
  · rcases ended with ⟨task, _, handed, serves⟩ | ⟨nothing, serves⟩
    · have zero := serves.count_eq_zero (sound queue) waits idle
      subst zero
      simp only [handed, Option.toList_some, List.map_singleton, List.mem_singleton,
        List.count_singleton, beq_iff_eq] at another ⊢
      refine ⟨?_, ?_⟩
      · rintro other rfl
        rw [serves.registered, Option.getD_some]
        exact ⟨rfl, serves.name_lt waits idle (Ne.symm another)⟩
      · intro other
        split
        · rename_i own
          subst own
          rw [serves.counted, serves.registered, Option.getD_some, Option.getD_some]
          rfl
        · rename_i differ
          rw [serves.getD_inFlight (sound queue) (Ne.symm differ)]
          simp
    · have zero := serves.count_eq_zero (sound queue) waits idle
      subst zero
      simp only [nothing, Option.toList_none, List.map_nil, List.not_mem_nil, false_implies,
        implies_true, List.count_nil, true_and]
      intro other
      by_cases own : other = first
      · subst own
        rw [serves.counted, serves.registered]
        simp
      · rw [serves.getD_inFlight (sound queue) own]
        simp

/-- A tenant that is served has had nothing in flight, and each further serving takes a completion. -/
theorem servings_bounded (engine : Engine) (queue : String) (state : TasksOut) (uses : List QueueUse)
    (tenant : Tenant) (sound : state.store.Sound)
    (neglected : Neglected engine queue tenant state uses) :
    ∀ other ∈ servings engine queue state uses,
      compare other.name tenant.name = .lt ∧
      state.counted queue other + (servings engine queue state uses).count other ≤
        (completions engine queue state uses).count other + 1 := by
  induction uses generalizing state with
  | nil => simp [servings]
  | cons use rest ih =>
    obtain ⟨here, later⟩ := neglected
    have further := ih _ (state.step_sound engine queue (use.storeUse queue) sound) later
    intro other member
    rw [servings, List.mem_append] at member
    rw [servings, completions, List.count_append, List.count_append]
    cases use with
    | add task time priority =>
      have same := state.counted_add engine queue task time priority other
      obtain ⟨name, bound⟩ := further other (member.resolve_left List.not_mem_nil)
      refine ⟨name, ?_⟩
      simp only [QueueUse.storeUse, servedBy, completedBy, List.count_nil] at bound ⊢
      omega
    | complete place =>
      have positive : 0 ≤ state.counted queue other := (sound queue).getD_inFlight other
      have less := state.counted_complete engine queue place other sound
      obtain ⟨name, bound⟩ := further other (member.resolve_left List.not_mem_nil)
      refine ⟨name, ?_⟩
      simp only [QueueUse.storeUse, servedBy, completedBy, List.count_nil] at bound ⊢
      omega
    | next =>
      obtain ⟨waits, idle, another⟩ := here rfl
      obtain ⟨first, moved⟩ :=
        counted_next_of_idle engine queue state tenant sound waits idle another
      have counted := moved other
      by_cases again : other ∈ servings engine queue
          (state.step engine queue (.ask (.next queue))) rest
      · obtain ⟨name, bound⟩ := further other again
        refine ⟨name, ?_⟩
        simp only [QueueUse.storeUse, servedBy, completedBy, List.count_nil] at bound ⊢
        omega
      · obtain ⟨zero, name⟩ := first other (member.resolve_right again)
        have none := List.count_eq_zero.mpr again
        have once := state.count_served_le queue other
        refine ⟨name, ?_⟩
        simp only [QueueUse.storeUse, servedBy, completedBy, List.count_nil]
        omega

/-- While a tenant waits with nothing in flight and is not served, each other is served at most once
more than its tasks are completed, and only tenants whose names come first. If none of these completes
a task, nobody is served twice. -/
theorem servings_le_completions (engine : Engine) (queue : String) (calls : List Call)
    (out : List (Tenant × Task)) (uses : List QueueUse) (tenant : Tenant)
    (neglected : Neglected engine queue tenant ⟨MemoryStore.after calls, out⟩ uses) :
    let state : TasksOut := ⟨MemoryStore.after calls, out⟩
    (∀ other, (servings engine queue state uses).count other ≤
      (completions engine queue state uses).count other + 1) ∧
    (∀ other ∈ servings engine queue state uses, compare other.name tenant.name = .lt) ∧
    ((∀ other ∈ completions engine queue state uses, compare other.name tenant.name ≠ .lt) →
      (servings engine queue state uses).Nodup) := by
  intro state
  have sound : state.store.Sound := MemoryStore.after_sound calls
  have bounded := servings_bounded engine queue state uses tenant sound neglected
  have bound (other : Tenant) : (servings engine queue state uses).count other ≤
      (completions engine queue state uses).count other + 1 := by
    by_cases member : other ∈ servings engine queue state uses
    · have positive : 0 ≤ state.counted queue other := (sound queue).getD_inFlight other
      have enough := (bounded other member).2
      omega
    · rw [List.count_eq_zero.mpr member]
      exact Nat.zero_le _
  refine ⟨bound, fun other member => (bounded other member).1, ?_⟩
  intro never
  refine List.nodup_iff_count_le_one.mpr fun other => ?_
  by_cases member : other ∈ servings engine queue state uses
  · have absent : other ∉ completions engine queue state uses := fun completes =>
      never other completes (bounded other member).1
    have enough := bound other
    rw [List.count_eq_zero.mpr absent] at enough
    exact enough
  · rw [List.count_eq_zero.mpr member]
    exact Nat.zero_le 1

def overtaking : List QueueUse :=
  [.add (taskOf ⟨1⟩ 0x61) moment .normal, .add (taskOf ⟨1⟩ 0x62) moment .normal,
    .add (taskOf ⟨2⟩ 0x63) moment .normal, .next, .complete 0, .next]

private theorem score_moment : score moment .normal = ⟨0x41d954fc40000000⟩ := by decide +kernel

theorem overtaking_neglects : Neglected Engine.standard "q" ⟨2⟩ start overtaking := by
  simp only [Neglected, overtaking, QueueUse.storeUse, step, Engine.perform, enqueueAt_leaves]
  rw [score_moment]
  have adds (task : Task) : QueueUse.add task moment .normal ≠ .next := by simp
  have completes : QueueUse.complete 0 ≠ .next := by simp
  refine ⟨fun same => absurd same (adds _), fun same => absurd same (adds _),
    fun same => absurd same (adds _), fun _ => ⟨⟨(taskOf ⟨2⟩ 0x63).encode, ?_⟩, ?_, ?_⟩,
    fun same => absurd same completes, fun _ => ⟨⟨(taskOf ⟨2⟩ 0x63).encode, ?_⟩, ?_, ?_⟩, trivial⟩
  · cbv
  · cbv
  · exact List.count_eq_zero.mp (by cbv)
  · cbv
  · cbv
  · exact List.count_eq_zero.mp (by cbv)

/-- The other tenant is served twice while the one waits, once more than it completes a task. -/
theorem overtaking_serves_twice :
    Neglected Engine.standard "q" ⟨2⟩ start overtaking ∧
      servings Engine.standard "q" start overtaking = [⟨1⟩, ⟨1⟩] := by
  refine ⟨overtaking_neglects, ?_⟩
  simp only [servings, overtaking, QueueUse.storeUse, step, Engine.perform, enqueueAt_leaves]
  rw [score_moment]
  cbv

theorem overtaking_servings_le :
    Neglected Engine.standard "q" ⟨2⟩ ⟨MemoryStore.after [], []⟩ overtaking ∧
      (servings Engine.standard "q" ⟨MemoryStore.after [], []⟩ overtaking).count ⟨1⟩ ≤
        (completions Engine.standard "q" ⟨MemoryStore.after [], []⟩ overtaking).count ⟨1⟩ + 1 :=
  ⟨overtaking_neglects, (servings_le_completions Engine.standard "q" [] [] overtaking ⟨2⟩
    overtaking_neglects).1 ⟨1⟩⟩

end TasksOut
end TenantQueue
