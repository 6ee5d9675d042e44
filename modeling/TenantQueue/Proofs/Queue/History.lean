import TenantQueue.Proofs.Queue.Calls

/-! No record is lost and none is doubled: a record is pending exactly if it was pushed last and
not popped since, and its score is that of the last push. -/
namespace TenantQueue

structure Event where
  call : Call
  reply : Except Failure call.Reply

inductive Movement where
  | entered (score : Double)
  | left
  deriving DecidableEq

namespace Movement

def score? : Movement → Option Double
  | entered score => some score
  | left => none

/-- The record is pushed, or a pop returns it. -/
def ofEvent? (queue : String) (tenant : Tenant) (record : Bytes) : Event → Option Movement
  | ⟨.push place owner bytes score, .ok ()⟩ =>
    if place = queue ∧ owner = tenant ∧ bytes = record then some (entered score) else none
  | ⟨.pop place, .ok (.popped owner bytes)⟩ =>
    if place = queue ∧ owner = tenant ∧ bytes = record then some left else none
  | _ => none

def last? (queue : String) (tenant : Tenant) (record : Bytes) (events : List Event) :
    Option Movement :=
  (events.filterMap (ofEvent? queue tenant record)).getLast?

theorem last?_cons (queue : String) (tenant : Tenant) (record : Bytes) (event : Event)
    (events : List Event) :
    last? queue tenant record (event :: events) =
      (last? queue tenant record events).or (ofEvent? queue tenant record event) := by
  unfold last?
  cases moved : ofEvent? queue tenant record event with
  | none => simp [moved]
  | some movement =>
    rw [List.filterMap_cons_some moved, List.getLast?_cons]
    cases (events.filterMap (ofEvent? queue tenant record)).getLast? <;> rfl

end Movement

namespace MemoryStore

def eventsFrom (store : MemoryStore) : List Call → List Event
  | [] => []
  | call :: rest => ⟨call, (store.perform call).1⟩ :: (store.perform call).2.eventsFrom rest

def history (calls : List Call) : List Event := empty.eventsFrom calls

def pendingScore? (store : MemoryStore) (queue : String) (tenant : Tenant) (record : Bytes) :
    Option Double :=
  ((store.queue queue).pendingOf tenant).score? record

theorem pendingScore?_push (store : MemoryStore) (place queue : String) (owner tenant : Tenant)
    (bytes record : Bytes) (score : Double) :
    (store.perform (.push place owner bytes score)).2.pendingScore? queue tenant record =
      if place = queue ∧ owner = tenant ∧ bytes = record then some score
      else store.pendingScore? queue tenant record := by
  unfold pendingScore?
  rw [queue_perform]
  by_cases samePlace : place = queue
  · subst samePlace
    by_cases sameOwner : owner = tenant
    · subst sameOwner
      simp [Call.queue, QueueState.after]
    · simp [Call.queue, QueueState.after, sameOwner]
  · simp [Call.queue, samePlace]

theorem pendingScore?_pop (store : MemoryStore) (place queue : String) (tenant : Tenant)
    (record : Bytes) (sound : store.Sound) :
    (store.perform (.pop place)).2.pendingScore? queue tenant record =
      match Movement.ofEvent? queue tenant record ⟨.pop place, (store.perform (.pop place)).1⟩ with
      | some movement => movement.score?
      | none => store.pendingScore? queue tenant record := by
  unfold pendingScore?
  rcases perform_pop_cases store place sound with
    ⟨performed, _⟩ | ⟨owner, count, _, ⟨bytes, score, _, performed⟩ | ⟨drained, performed⟩⟩
  · rw [performed]
    rfl
  · rw [performed, queue_setQueue_eq]
    by_cases samePlace : place = queue
    · subst samePlace
      rw [if_pos rfl, QueueState.pendingOf_serve _ _ _ _ (sound place)]
      by_cases sameOwner : owner = tenant
      · subst sameOwner
        by_cases sameBytes : bytes = record <;> simp [Movement.ofEvent?, Movement.score?, sameBytes]
      · simp [Movement.ofEvent?, sameOwner]
    · simp [Movement.ofEvent?, samePlace]
  · rw [performed, queue_setQueue_eq]
    by_cases samePlace : place = queue
    · subst samePlace
      rw [if_pos rfl, QueueState.pendingOf_dismiss _ _ _ (sound place) drained]
      rfl
    · rw [if_neg samePlace]
      rfl

theorem pendingScore?_other (store : MemoryStore) (call : Call) (queue : String) (tenant : Tenant)
    (record : Bytes)
    (kept : ((store.queue call.queue).after call).pendingOf tenant =
      (store.queue call.queue).pendingOf tenant) :
    (store.perform call).2.pendingScore? queue tenant record =
      store.pendingScore? queue tenant record := by
  unfold pendingScore?
  rw [queue_perform]
  split
  · rename_i same
    rw [kept, same]
  · rfl

/-- A call moves a record as its event tells, and otherwise leaves it where it is. -/
theorem pendingScore?_perform (store : MemoryStore) (call : Call) (queue : String)
    (tenant : Tenant) (record : Bytes) (sound : store.Sound) :
    (store.perform call).2.pendingScore? queue tenant record =
      match Movement.ofEvent? queue tenant record ⟨call, (store.perform call).1⟩ with
      | some movement => movement.score?
      | none => store.pendingScore? queue tenant record := by
  cases call with
  | push place owner bytes score =>
    rw [pendingScore?_push]
    change _ = match (if place = queue ∧ owner = tenant ∧ bytes = record then
      some (Movement.entered score) else none) with
      | some movement => movement.score?
      | none => store.pendingScore? queue tenant record
    split <;> rfl
  | pop place => exact pendingScore?_pop store place queue tenant record sound
  | size place => exact pendingScore?_other store _ queue tenant record rfl
  | release place owner => exact pendingScore?_other store _ queue tenant record rfl
  | activeTenants place => exact pendingScore?_other store _ queue tenant record rfl
  | addProcessing place owner fingerprint deadline =>
    exact pendingScore?_other store _ queue tenant record rfl
  | removeProcessing place owner fingerprint =>
    exact pendingScore?_other store _ queue tenant record rfl
  | expiredProcessing place owner now => exact pendingScore?_other store _ queue tenant record rfl
  | setPayload place fingerprint bytes => exact pendingScore?_other store _ queue tenant record rfl
  | getPayload place fingerprint => exact pendingScore?_other store _ queue tenant record rfl
  | deletePayload place fingerprint => exact pendingScore?_other store _ queue tenant record rfl

theorem pendingScore?_performAll (store : MemoryStore) (calls : List Call) (queue : String)
    (tenant : Tenant) (record : Bytes) (sound : store.Sound) :
    (store.performAll calls).pendingScore? queue tenant record =
      match Movement.last? queue tenant record (store.eventsFrom calls) with
      | some movement => movement.score?
      | none => store.pendingScore? queue tenant record := by
  induction calls generalizing store with
  | nil => rfl
  | cons call rest ih =>
    -- What the first call did shows only where no later one moves the record.
    rw [performAll, ih _ (perform_sound store call sound), eventsFrom, Movement.last?_cons,
      pendingScore?_perform store call queue tenant record sound]
    cases Movement.last? queue tenant record ((store.perform call).2.eventsFrom rest) <;> rfl

theorem pendingScore?_after (calls : List Call) (queue : String) (tenant : Tenant)
    (record : Bytes) :
    (after calls).pendingScore? queue tenant record =
      (Movement.last? queue tenant record (history calls)).bind Movement.score? := by
  unfold after history
  rw [pendingScore?_performAll empty calls queue tenant record fun _ => QueueState.empty_sound]
  cases Movement.last? queue tenant record (empty.eventsFrom calls) <;> rfl

/-- Each event of a history is that of a call made when all before it had happened. -/
theorem eventsFrom_split (store : MemoryStore) (calls : List Call) (before rest : List Event)
    (event : Event) (split : store.eventsFrom calls = before ++ event :: rest) :
    ∃ earlier call later, calls = earlier ++ call :: later ∧
      before = store.eventsFrom earlier ∧
      event = ⟨call, ((store.performAll earlier).perform call).1⟩ := by
  induction calls generalizing store before with
  | nil => simp [eventsFrom] at split
  | cons call calls ih =>
    rw [eventsFrom] at split
    cases before with
    | nil =>
      rw [List.nil_append, List.cons.injEq] at split
      exact ⟨[], call, calls, rfl, rfl, split.1.symm⟩
    | cons first before =>
      rw [List.cons_append, List.cons.injEq] at split
      obtain ⟨same, tail⟩ := split
      obtain ⟨earlier, next, later, calls_eq, before_eq, event_eq⟩ := ih _ before tail
      refine ⟨call :: earlier, next, later, ?_, ?_, event_eq⟩
      · rw [calls_eq, List.cons_append]
      · rw [eventsFrom, ← same, before_eq]

theorem performAll_concat (store : MemoryStore) (calls : List Call) (call : Call) :
    store.performAll (calls ++ [call]) = ((store.performAll calls).perform call).2 :=
  performAll_append store calls [call]

/-- A pop returns only a record that was pushed for that tenant and queue, and not popped since. -/
theorem popped_entered (calls : List Call) (queue : String) (tenant : Tenant) (record : Bytes)
    (popped : ((after calls).perform (.pop queue)).1 = .ok (.popped tenant record)) :
    ∃ score, Movement.last? queue tenant record (history calls) = some (.entered score) := by
  have recorded := pendingScore?_after calls queue tenant record
  have pending : ∃ score, (after calls).pendingScore? queue tenant record = some score := by
    rcases perform_pop_cases (after calls) queue (after_sound calls) with
      ⟨performed, _⟩ | ⟨owner, count, _, ⟨bytes, score, first, performed⟩ | ⟨_, performed⟩⟩
    · simp [performed] at popped
    · rw [performed] at popped
      simp only [Except.ok.injEq, PopOutcome.popped.injEq] at popped
      obtain ⟨rfl, rfl⟩ := popped
      exact ⟨score, first.1⟩
    · simp [performed] at popped
  obtain ⟨score, found⟩ := pending
  rw [found] at recorded
  cases last : Movement.last? queue tenant record (history calls) with
  | none => simp [last] at recorded
  | some movement =>
    cases movement with
    | left => simp [last, Movement.score?] at recorded
    | entered entered => exact ⟨entered, rfl⟩

/-- A record is pending, in both indexes and once, exactly if its last movement entered it, and
under the score of that movement. Whatever a pop returns was entered and has not left since, and
an event that does not move the record leaves it as it was. -/
theorem pending_iff_entered_last (calls : List Call) (queue : String) (tenant : Tenant)
    (record : Bytes) :
    (∀ score, (after calls).pendingScore? queue tenant record = some score ↔
      Movement.last? queue tenant record (history calls) = some (.entered score)) ∧
    (∀ score, (score, record) ∈ (((after calls).queue queue).pendingOf tenant).toList ↔
      Movement.last? queue tenant record (history calls) = some (.entered score)) ∧
    (((after calls).queue queue).pendingOf tenant).members.Nodup ∧
    (∀ before rest, history calls = before ++ ⟨.pop queue, .ok (.popped tenant record)⟩ :: rest →
      ∃ score, Movement.last? queue tenant record before = some (.entered score)) ∧
    ∀ call, Movement.ofEvent? queue tenant record ⟨call, ((after calls).perform call).1⟩ = none →
      (after (calls ++ [call])).pendingScore? queue tenant record =
        (after calls).pendingScore? queue tenant record := by
  have inStep := (after_sound calls queue).pendingInStep tenant
  have recorded (score : Double) : (after calls).pendingScore? queue tenant record = some score ↔
      Movement.last? queue tenant record (history calls) = some (.entered score) := by
    rw [pendingScore?_after]
    cases Movement.last? queue tenant record (history calls) with
    | none => simp
    | some movement => cases movement <;> simp [Movement.score?]
  refine ⟨recorded, ?_, ScoredSet.members_nodup _ inStep, ?_, ?_⟩
  · intro score
    rw [← recorded score]
    exact inStep.agree record score
  · intro before rest split
    obtain ⟨earlier, call, later, _, rfl, event_eq⟩ := eventsFrom_split _ _ _ _ _ split
    rw [Event.mk.injEq] at event_eq
    obtain ⟨rfl, popped⟩ := event_eq
    exact popped_entered earlier queue tenant record (eq_of_heq popped).symm
  · intro call still
    have moved := pendingScore?_perform (after calls) call queue tenant record (after_sound calls)
    rw [still] at moved
    rw [after, performAll_concat]
    exact moved

end MemoryStore
end TenantQueue
