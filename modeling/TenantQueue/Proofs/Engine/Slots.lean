import TenantQueue.Proofs.Engine.Ownership
import TenantQueue.Proofs.Foreman.Execution

/-! The slot that a popped task takes, and the one that is given back when a worker has executed it. The
first is taken from the tenant in whose records the task was found, the second is given to the tenant that
the task names. -/
namespace TenantQueue

namespace QueueState

def Restores (before after : QueueState) (tenant : Tenant) : Prop :=
  after.inFlight tenant = before.inFlight tenant ∧
    ∀ other, other ≠ tenant → (after.inFlight other).isSome →
      after.inFlight other = before.inFlight other

structure Takes (before popped : QueueState) (tenant : Tenant) (count : Int) : Prop where
  registered : before.inFlight tenant = some count
  counted : popped.inFlight tenant = some (count + 1)
  others : ∀ other, other ≠ tenant →
    popped.inFlight other = before.inFlight other ∨ popped.inFlight other = none

theorem Serves.takes {state next : QueueState} {tenant : Tenant} {record : Bytes} {count : Int}
    (serves : state.Serves next tenant record count (count + 1)) : state.Takes next tenant count where
  registered := serves.registered
  counted := serves.counted
  others other differ := serves.inFlight_cases other differ

/-- To give back a slot undoes the taking of it exactly if it goes to the same tenant. -/
theorem Takes.release_restores_iff {before popped : QueueState} {tenant owner : Tenant} {count : Int}
    (takes : before.Takes popped tenant count) (sound : before.Sound) :
    before.Restores (popped.release owner) tenant ↔ owner = tenant := by
  have positive := sound.counted tenant count takes.registered
  constructor
  · intro restores
    by_contra differ
    have still := restores.1
    rw [inFlight_release, if_neg differ, takes.counted, takes.registered, Option.some.injEq] at still
    omega
  · rintro rfl
    constructor
    · rw [inFlight_release, if_pos rfl, takes.counted, takes.registered, Option.getD_some,
        Int.add_sub_cancel, Int.max_eq_left positive]
    · intro other differ registered
      rw [inFlight_release, if_neg (Ne.symm differ)] at registered ⊢
      rcases takes.others other differ with same | gone
      · exact same
      · rw [gone] at registered
        contradiction

end QueueState

namespace Engine
open Program

theorem next_takes (store popped : MemoryStore) (queue : String) (task : Task) (notices : List Notice)
    (sound : store.Sound)
    (ran : (next queue).run MemoryStore.backend store = (.ok (some task), notices, popped)) :
    ∃ tenant count record, (store.queue queue).Takes (popped.queue queue) tenant count ∧
      (((store.queue queue).pendingOf tenant).score? record).isSome ∧
      Task.decode record = .ok task := by
  obtain ⟨outcome, _, last, _, also, _, _, _, _, selected⟩ := next_selects store queue sound
  rw [ran, Prod.mk.injEq, Prod.mk.injEq] at also
  obtain ⟨rfl, _, rfl⟩ := also
  rcases selected with ⟨_, nothing, _⟩ | ⟨tenant, record, count, _, ended⟩
  · simp at nothing
  · rcases ended with ⟨read, decoded, same, serves⟩ | ⟨_, failed, _⟩
    · simp only [Outcome.ok.injEq, Option.some.injEq] at same
      subst same
      obtain ⟨score, first⟩ := serves.first
      exact ⟨tenant, count, record, serves.takes, Option.isSome_of_eq_some first.1, decoded⟩
    · contradiction

/-- A task that is popped takes a slot of one tenant, and the worker that executes it gives back one of the
tenant that the task names, whatever the outcome. So the counts are as before exactly if the two are the
same; and they are if tasks are only added and begun under their own tenants, and fingerprints tell those
apart that are begun. -/
theorem executed_restores_iff (engine : Engine) (operations : List Operation) (queue : String)
    (task : Task) (notices : List Notice) (popped : MemoryStore)
    (ran : (next queue).run MemoryStore.backend (engine.after operations) =
      (.ok (some task), notices, popped)) :
    ∃ tenant count,
      ((engine.after operations).queue queue).Takes (popped.queue queue) tenant count ∧
      (∀ (foreman : Foreman) index turns last, foreman.config.queue = queue →
        foreman.Executes index task turns popped last →
          last = (popped.perform (.release queue task.tenant)).2 ∧
          (((engine.after operations).queue queue).Restores (last.queue queue) tenant ↔
            task.tenant = tenant)) ∧
      ∀ tasks, (∀ task ∈ tasks, task.Recordable) → Task.ToldApart tasks →
        (∀ operation ∈ operations, operation.Own tasks ∧ operation.AddsOwn) →
        task.tenant = tenant := by
  have sound := (after_keeps engine operations).1
  obtain ⟨tenant, count, record, takes, pending, decoded⟩ :=
    next_takes (engine.after operations) popped queue task notices sound ran
  refine ⟨tenant, count, takes, ?_, ?_⟩
  · rintro foreman index turns last rfl executes
    have released := executes.last_eq
    refine ⟨released, ?_⟩
    have same : last.queue foreman.config.queue =
        (popped.queue foreman.config.queue).release task.tenant := by
      rw [released]
      exact (MemoryStore.queue_perform popped (.release foreman.config.queue task.tenant)
        foreman.config.queue).trans (if_pos rfl)
    rw [same]
    exact takes.release_restores_iff (sound _)
  · intro tasks recordable toldApart own
    have proper := after_proper engine operations recordable toldApart
      (fun operation member => (own operation member).1)
      (fun operation member => (own operation member).2)
    exact proper.owned queue tenant record task pending decoded

def attended : Foreman where
  config := ⟨"q", 1, ⟨1000000⟩, ⟨1000000⟩⟩
  engine := standard
  registry := ⟨Table.empty.set "t" fun _ _ => .finished⟩
  measured := false
  lifecycle := .started
  counters := .zero
  workers := [⟨some typed, .waiting⟩]
  idle := []
  assigner := .listening

def attendance : List (Moment × Foreman.Member) := List.replicate 4 (⟨0, noon⟩, .worker 0)

theorem attended_executes (store : MemoryStore) :
    attended.Executes 0 typed attendance store
      (store.perform (.release "q" typed.tenant)).2 where
  given := ⟨.waiting, rfl, rfl⟩
  silent := by
    intro handler found
    obtain rfl := Option.some.inj found
    trivial
  own := by simp [attendance]
  ended := ⟨.announcing, rfl, rfl⟩
  last := rfl

theorem typed_handed (tenant : Tenant) (name : tenant = ⟨1⟩ ∨ tenant = ⟨2⟩) :
    ∃ notices, (next "q").run MemoryStore.backend
        (standard.after [.enqueueAt "q" tenant typed noon .normal]) =
      (.ok (some typed), notices,
        (next "q").leaves (standard.after [.enqueueAt "q" tenant typed noon .normal])) := by
  have handed : ((next "q").run MemoryStore.backend
      (standard.after [.enqueueAt "q" tenant typed noon .normal])).1 = .ok (some typed) := by
    change ((next "q").run MemoryStore.backend
      (MemoryStore.empty.perform (.push "q" tenant typed.encode (score noon .normal))).2).1 = _
    -- The score of the task plays no part, and is slow to evaluate.
    generalize score noon .normal = time
    rcases name with rfl | rfl <;> cbv
  exact ⟨_, Prod.ext handed (Prod.ext rfl rfl)⟩

theorem executed_restores_iff_typed :
    ∃ notices popped last, (next "q").run MemoryStore.backend
        (standard.after [.enqueueAt "q" ⟨1⟩ typed noon .normal]) =
          (.ok (some typed), notices, popped) ∧
      attended.Executes 0 typed attendance popped last ∧
      ((standard.after [.enqueueAt "q" ⟨1⟩ typed noon .normal]).queue "q").Restores
        (last.queue "q") ⟨1⟩ := by
  obtain ⟨notices, ran⟩ := typed_handed ⟨1⟩ (Or.inl rfl)
  obtain ⟨tenant, count, _, restores, own⟩ :=
    executed_restores_iff standard [.enqueueAt "q" ⟨1⟩ typed noon .normal] "q" typed notices _ ran
  have recordable : typed.Recordable := ⟨by decide, by decide, by decide⟩
  have same : typed.tenant = tenant :=
    own [] (List.forall_mem_nil _) (fun _ listed => absurd listed List.not_mem_nil) fun operation listed =>
      List.mem_singleton.mp listed ▸ ⟨trivial, recordable, rfl⟩
  refine ⟨notices, _, _, ran, attended_executes _, ?_⟩
  have restored := (restores attended 0 attendance _ rfl (attended_executes _)).2.mpr same
  rw [← same] at restored
  exact restored

def misplaced : List Operation := [.enqueueAt "q" ⟨2⟩ typed noon .normal]

/-- The slot that tenant 2 gave for the task goes to tenant 1, and tenant 2 does not get it back. -/
theorem misplaced_keeps_slot :
    ∃ notices popped last, (next "q").run MemoryStore.backend (standard.after misplaced) =
        (.ok (some typed), notices, popped) ∧
      attended.Executes 0 typed attendance popped last ∧
      ((standard.after misplaced).queue "q").inFlight ⟨2⟩ = some 0 ∧
      (popped.queue "q").inFlight ⟨2⟩ = some 1 ∧ (last.queue "q").inFlight ⟨2⟩ = some 1 := by
  obtain ⟨notices, ran⟩ := typed_handed ⟨2⟩ (Or.inr rfl)
  refine ⟨notices, _, _, ran, attended_executes _, ?_⟩
  have store : standard.after [.enqueueAt "q" ⟨2⟩ typed noon .normal] =
      (MemoryStore.empty.perform (.push "q" ⟨2⟩ typed.encode (score noon .normal))).2 := rfl
  rw [misplaced, store]
  generalize score noon .normal = time
  refine ⟨?_, ?_, ?_⟩
  · cbv
  · cbv
  · cbv

end Engine
end TenantQueue
