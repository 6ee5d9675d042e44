import TenantQueue.Proofs.Engine.TasksOut
import Mathlib

/-! Fairness by the tasks that are really out. The registry counts too few for a tenant that was out
of work when a pop came by it: it leaves with its count and comes back with none. A serving is fair
exactly if what the registry has forgotten of the tenant served does not outweigh what it has
forgotten and still counts of the others that wait. -/
namespace TenantQueue

/-- The tasks that are out, and how many of each tenant's were in flight when it left the registry and
are not completed since. -/
structure TasksForgotten extends TasksOut where
  forgotten : Tenant → Nat

namespace TasksForgotten

def start : TasksForgotten := ⟨TasksOut.start, fun _ => 0⟩

/-- Adds the count of a tenant that has left the registry. -/
def forget (before after : QueueState) (forgotten : Tenant → Nat) (tenant : Tenant) : Nat :=
  match after.inFlight tenant with
  | some _ => forgotten tenant
  | none => forgotten tenant + ((before.inFlight tenant).getD 0).toNat

/-- Takes off a task that is completed without being counted. -/
def settle (before : QueueState) (completed : List Tenant) (forgotten : Tenant → Nat)
    (tenant : Tenant) : Nat :=
  if tenant ∈ completed ∧ (before.inFlight tenant).getD 0 = 0 then forgotten tenant - 1
  else forgotten tenant

def step (engine : Engine) (queue : String) (state : TasksForgotten) (use : QueueUse) :
    TasksForgotten :=
  let next := state.toTasksOut.step engine queue (use.storeUse queue)
  { next with
    forgotten := match use with
      | .add _ _ _ => state.forgotten
      | .next => forget (state.store.queue queue) (next.store.queue queue) state.forgotten
      | .complete place =>
        settle (state.store.queue queue) (state.completedAt place) state.forgotten }

def after (engine : Engine) (queue : String) (uses : List QueueUse) : TasksForgotten :=
  uses.foldl (step engine queue) start

/-- No tenant that waits has fewer tasks out than the one that the next serving serves. -/
def Fair (queue : String) (state : TasksForgotten) : Prop :=
  ∀ tenant record, state.store.taken? queue = some (tenant, record) →
    ∀ other, (state.store.queue queue).Waits other → state.load tenant ≤ state.load other

/-- What is forgotten of the tenant served next is no more than what is forgotten of each other that
waits, and by how much more that one is counted. -/
def Remembered (queue : String) (state : TasksForgotten) : Prop :=
  ∀ tenant record, state.store.taken? queue = some (tenant, record) →
    ∀ other, (state.store.queue queue).Waits other →
      (state.forgotten tenant : Int) ≤
        state.forgotten other + (state.counted queue other - state.counted queue tenant)

/-- The next serving leaves every tenant registered that has a task out. -/
def Keeps (engine : Engine) (queue : String) (state : TasksForgotten) : Prop :=
  ∀ tenant ∈ state.out.map Prod.fst,
    (((state.step engine queue .next).store.queue queue).inFlight tenant).isSome

def AtServings (engine : Engine) (queue : String) (uses : List QueueUse)
    (holds : TasksForgotten → Prop) : Prop :=
  ∀ before rest, uses = before ++ .next :: rest → holds (after engine queue before)

structure Balanced (queue : String) (state : TasksForgotten) : Prop where
  sound : state.store.Sound
  balance : ∀ tenant, (state.load tenant : Int) =
    state.counted queue tenant + state.forgotten tenant

theorem start_balanced (queue : String) : start.Balanced queue where
  sound _ := QueueState.empty_sound
  balance _ := rfl

section
variable {queue : String} {state : TasksForgotten}

theorem add_balanced (engine : Engine) (task : Task) (time : Instant) (priority : Priority)
    (balanced : state.Balanced queue) :
    (state.step engine queue (.add task time priority)).Balanced queue where
  sound := TasksOut.step_sound engine queue _ _ balanced.sound
  balance tenant := by
    have counted := TasksOut.counted_add engine queue state.toTasksOut task time priority tenant
    have before := balanced.balance tenant
    rw [← counted] at before
    exact before

theorem next_balanced (engine : Engine) (balanced : state.Balanced queue) :
    (state.step engine queue .next).Balanced queue where
  sound := TasksOut.step_sound engine queue _ _ balanced.sound
  balance tenant := by
    have positive : 0 ≤ state.counted queue tenant := (balanced.sound queue).getD_inFlight tenant
    have before := balanced.balance tenant
    have load := TasksOut.load_next engine queue state.toTasksOut tenant
    have served := TasksOut.counted_next engine queue state.toTasksOut tenant balanced.sound
    simp only [step, QueueUse.storeUse, forget]
    cases registered : ((state.toTasksOut.step engine queue (.ask (.next queue))).store.queue
        queue).inFlight tenant with
    | some count =>
      rw [registered] at served
      have counted := served.resolve_right fun gone => Option.some_ne_none count gone.1
      dsimp only
      omega
    | none =>
      have zero : (state.toTasksOut.step engine queue (.ask (.next queue))).counted queue tenant = 0 := by
        rw [TasksOut.counted, registered, Option.getD_none]
      -- Who leaves the registry is not served, whether it had a count or none.
      have unserved : (state.served queue).count tenant = 0 := by
        rcases served with counted | gone
        · omega
        · exact List.count_eq_zero.mpr gone.2
      have forgets : (state.counted queue tenant).toNat =
          (((state.store.queue queue).inFlight tenant).getD 0).toNat := rfl
      dsimp only
      omega

theorem complete_balanced (engine : Engine) (place : Nat) (balanced : state.Balanced queue) :
    (state.step engine queue (.complete place)).Balanced queue where
  sound := TasksOut.step_sound engine queue _ _ balanced.sound
  balance tenant := by
    have positive : 0 ≤ state.counted queue tenant := (balanced.sound queue).getD_inFlight tenant
    have before := balanced.balance tenant
    have load := TasksOut.load_complete engine queue state.toTasksOut place tenant
    have counted := TasksOut.counted_complete engine queue state.toTasksOut place tenant balanced.sound
    have once := state.count_completedAt_le place tenant
    simp only [step, QueueUse.storeUse, settle]
    split
    · rename_i uncounted
      have listed := List.count_pos_iff.mpr uncounted.1
      have zero : state.counted queue tenant = 0 := uncounted.2
      omega
    · rename_i settled
      rcases not_and_or.mp settled with unlisted | some
      · have none := List.count_eq_zero.mpr unlisted
        omega
      · have counts : state.counted queue tenant ≠ 0 := some
        omega

theorem step_balanced (engine : Engine) (use : QueueUse) (balanced : state.Balanced queue) :
    (state.step engine queue use).Balanced queue := by
  cases use with
  | add task time priority => exact add_balanced engine task time priority balanced
  | next => exact next_balanced engine balanced
  | complete place => exact complete_balanced engine place balanced

theorem after_balanced (engine : Engine) (queue : String) (uses : List QueueUse) :
    (after engine queue uses).Balanced queue := by
  induction uses using List.reverseRecOn with
  | nil => exact start_balanced queue
  | append_singleton before use ih =>
    rw [after, List.foldl_append]
    exact step_balanced engine use ih

theorem fair_iff (balanced : state.Balanced queue) : state.Fair queue ↔ state.Remembered queue := by
  have outweighed (tenant other : Tenant) : state.load tenant ≤ state.load other ↔
      (state.forgotten tenant : Int) ≤
        state.forgotten other + (state.counted queue other - state.counted queue tenant) := by
    have first := balanced.balance tenant
    have second := balanced.balance other
    omega
  simp only [Fair, Remembered, outweighed]

/-- The registry counts no more for the tenant served next than for any other that waits. -/
theorem taken_least {tenant other : Tenant} {record : Bytes} (sound : state.store.Sound)
    (taken : state.store.taken? queue = some (tenant, record))
    (waits : (state.store.queue queue).Waits other) :
    state.counted queue tenant ≤ state.counted queue other := by
  rcases state.store.next_hands queue sound with
    ⟨nothing, _⟩ | ⟨owner, bytes, count, found, ended⟩
  · rw [nothing] at taken
    contradiction
  · rw [found, Option.some.injEq, Prod.mk.injEq] at taken
    obtain ⟨rfl, rfl⟩ := taken
    have stands : ∃ counted, (state.store.queue queue).Serves
        (((Engine.next queue).leaves state.store).queue queue) owner bytes count counted := by
      rcases ended with ⟨_, _, _, serves⟩ | ⟨_, serves⟩ <;> exact ⟨_, serves⟩
    obtain ⟨_, serves⟩ := stands
    obtain ⟨otherCount, registered, order⟩ := serves.least other waits
    rw [TasksOut.counted, TasksOut.counted, serves.registered, registered]
    exact ScoredSet.score_le_of_precedence order

end

theorem AtServings.of_append {engine : Engine} {queue : String} {uses more : List QueueUse}
    {holds : TasksForgotten → Prop} (all : AtServings engine queue (uses ++ more) holds) :
    AtServings engine queue uses holds := by
  intro before rest split
  exact all before (rest ++ more) (by rw [split, List.append_assoc]; rfl)

/-- Nothing is forgotten while no serving comes by a tenant that is out of work but has tasks out. -/
theorem forgotten_eq_zero (engine : Engine) (queue : String) (uses : List QueueUse)
    (kept : AtServings engine queue uses (Keeps engine queue)) (tenant : Tenant) :
    (after engine queue uses).forgotten tenant = 0 := by
  -- From the last use back: only a serving adds to what is forgotten.
  induction uses using List.reverseRecOn with
  | nil => rfl
  | append_singleton uses use ih =>
    have nothing := ih kept.of_append
    have stepped : after engine queue (uses ++ [use]) =
        (after engine queue uses).step engine queue use := by
      simp only [after, List.foldl_append, List.foldl_cons, List.foldl_nil]
    rw [stepped]
    cases use with
    | add task time priority => exact nothing
    | complete place => simp only [step, settle, nothing, Nat.zero_sub, ite_self]
    | next =>
      have stays := kept uses [] rfl tenant
      have balance := (after_balanced engine queue uses).balance tenant
      simp only [step, forget] at stays ⊢
      split
      · exact nothing
      · rename_i gone
        rw [gone] at stays
        -- A tenant that is gone has no task out, so it left with a count of zero.
        have idle : (after engine queue uses).load tenant = 0 :=
          List.count_eq_zero.mpr fun out => Bool.false_ne_true (stays out)
        rw [idle, nothing] at balance
        simp only [TasksOut.counted] at balance
        omega

/-- A serving is fair exactly if what is forgotten of the tenant that it serves does not outweigh
what is forgotten of the others that wait and what more they are counted. If every serving leaves
the tenants registered that have tasks out, all are fair. -/
theorem servings_fair_iff (engine : Engine) (queue : String) (uses : List QueueUse) :
    (∀ tenant, ((after engine queue uses).load tenant : Int) =
      (after engine queue uses).counted queue tenant +
        (after engine queue uses).forgotten tenant) ∧
    (AtServings engine queue uses (Fair queue) ↔ AtServings engine queue uses (Remembered queue)) ∧
    (AtServings engine queue uses (Keeps engine queue) →
      AtServings engine queue uses (Fair queue)) := by
  refine ⟨(after_balanced engine queue uses).balance, ?_, ?_⟩
  · simp only [AtServings, fair_iff (after_balanced engine queue _)]
  · intro kept before rest split
    have balanced := after_balanced engine queue before
    have earlier : AtServings engine queue before (Keeps engine queue) := by
      rw [split] at kept
      exact kept.of_append
    rw [fair_iff balanced]
    intro tenant record taken other waits
    have least := taken_least balanced.sound taken waits
    rw [forgotten_eq_zero engine queue before earlier, forgotten_eq_zero engine queue before earlier]
    omega

open TasksOut (moment taskOf)

/-- A tenant leaves the registry with a task out, and comes back beside one that has none. -/
def returning : List QueueUse :=
  [.add (taskOf ⟨1⟩ 0x61) moment .normal, .next, .next,
    .add (taskOf ⟨1⟩ 0x62) moment .normal, .add (taskOf ⟨2⟩ 0x63) moment .normal]

/-- The tenant that came back is served before the one that has nothing out. -/
theorem returning_not_fair :
    ¬AtServings Engine.standard "q" (returning ++ [.next]) (Fair "q") := by
  intro fair
  -- The score of the tasks plays no part, and is slow to evaluate.
  have served : (after Engine.standard "q" returning).store.taken? "q" =
      some (⟨1⟩, (taskOf ⟨1⟩ 0x62).encode) := by
    simp only [after, returning, List.foldl, step, QueueUse.storeUse, TasksOut.step, Engine.perform,
      TasksOut.enqueueAt_leaves]
    generalize score moment .normal = time
    cbv
  have waits : ((after Engine.standard "q" returning).store.queue "q").Waits ⟨2⟩ := by
    refine ⟨(taskOf ⟨2⟩ 0x63).encode, ?_⟩
    simp only [after, returning, List.foldl, step, QueueUse.storeUse, TasksOut.step, Engine.perform,
      TasksOut.enqueueAt_leaves]
    generalize score moment .normal = time
    cbv
  have loads : (after Engine.standard "q" returning).load ⟨2⟩ <
      (after Engine.standard "q" returning).load ⟨1⟩ := by
    simp only [after, returning, List.foldl, step, QueueUse.storeUse, TasksOut.step, Engine.perform,
      TasksOut.enqueueAt_leaves]
    generalize score moment .normal = time
    cbv
  have enough := fair returning [] rfl ⟨1⟩ (taskOf ⟨1⟩ 0x62).encode served ⟨2⟩ waits
  omega

end TasksForgotten
end TenantQueue
