import TenantQueue.Proofs.Queue.History
import TenantQueue.Proofs.Queue.Total

/-! Tenants do not disturb each other. The records a tenant gets back, and in which order, follow
from its own pushes and from when it is served; and whom the pops serve follows from how many
records each tenant has, not from the scores under which they were pushed. -/
namespace TenantQueue

/-- What a tenant sees of a queue: its pushes, and when a pop takes one of its records. -/
inductive Sight where
  | pushed (record : Bytes) (score : Double)
  | served
  deriving DecidableEq

namespace Sight

def ofEvent? (queue : String) (tenant : Tenant) : Event → Option Sight
  | ⟨.push place owner record score, .ok ()⟩ =>
    if place = queue ∧ owner = tenant then some (pushed record score) else none
  | ⟨.pop place, .ok (.popped owner _)⟩ =>
    if place = queue ∧ owner = tenant then some served else none
  | _ => none

/-- The records that leave a pending set by what its tenant sees, and the set they leave behind. -/
def replay (set : ScoredSet Double Bytes) : List Sight → List Bytes × ScoredSet Double Bytes
  | [] => ([], set)
  | pushed record score :: later => replay (set.insert record score) later
  | served :: later =>
    match set.popFirst? with
    | some (record, rest) => (record :: (replay rest later).1, (replay rest later).2)
    | none => replay set later

end Sight

def Event.taken? (queue : String) (tenant : Tenant) : Event → Option Bytes
  | ⟨.pop place, .ok (.popped owner record)⟩ =>
    if place = queue ∧ owner = tenant then some record else none
  | _ => none

def takenRecords (queue : String) (tenant : Tenant) (events : List Event) : List Bytes :=
  events.filterMap (Event.taken? queue tenant)

def sights (queue : String) (tenant : Tenant) (events : List Event) : List Sight :=
  events.filterMap (Sight.ofEvent? queue tenant)

inductive Choice where
  | nobody
  | served (tenant : Tenant)
  | dismissed (tenant : Tenant)
  deriving DecidableEq

def PopOutcome.choice : PopOutcome → Choice
  | empty => .nobody
  | drained tenant => .dismissed tenant
  | popped tenant _ => .served tenant

def Event.choice? (queue : String) : Event → Option Choice
  | ⟨.pop place, .ok outcome⟩ => if place = queue then some outcome.choice else none
  | _ => none

def choices (queue : String) (events : List Event) : List Choice :=
  events.filterMap (Event.choice? queue)

namespace Call

/-- The same call, but for the score of a push. -/
inductive Rescored : Call → Call → Prop
  | push (queue : String) (tenant : Tenant) (record : Bytes) (first second : Double) :
    Rescored (.push queue tenant record first) (.push queue tenant record second)
  | same (call : Call) : Rescored call call

def pushed? (queue : String) : Call → Option (Tenant × Bytes)
  | push place tenant record _ => if place = queue then some (tenant, record) else none
  | _ => none

end Call

def pushes (queue : String) (calls : List Call) : List (Tenant × Bytes) :=
  calls.filterMap (Call.pushed? queue)

namespace ScoredSet
variable {σ μ : Type} [DecidableEq μ] [Ord σ] [Ord μ]
  [Std.LawfulEqOrd σ] [Std.LawfulEqOrd μ] [Std.TransOrd σ] [Std.TransOrd μ]

theorem size_insert (set : ScoredSet σ μ) (member : μ) (score : σ) (inStep : set.InStep)
    (fresh : set.score? member = none) : (set.insert member score).size = set.size + 1 := by
  have inserted := insert_inStep set member score inStep
  have shrunk := size_erase (set.insert member score) member score inserted
    (by rw [score?_insert, if_pos rfl])
  have back : ((set.insert member score).erase member).members.Perm set.members := by
    refine (List.perm_ext_iff_of_nodup (members_nodup _ (erase_inStep _ member inserted))
      (members_nodup set inStep)).mpr ?_
    intro other
    rw [mem_members _ (erase_inStep _ member inserted), mem_members set inStep, score?_erase,
      score?_insert]
    split
    · rename_i same
      rw [← same, fresh]
    · rfl
  have lengths := back.length_eq
  rw [← shrunk, size_eq_length set inStep,
    size_eq_length _ (erase_inStep _ member inserted)]
  simpa [members] using lengths

end ScoredSet

namespace QueueState

structure Stocked (used : List (Tenant × Bytes)) (state : QueueState) : Prop where
  sound : state.Sound
  pending : ∀ tenant record, ((state.pendingOf tenant).score? record).isSome →
    (tenant, record) ∈ used

namespace Stocked
variable {used : List (Tenant × Bytes)} {state : QueueState}

theorem push (stocked : state.Stocked used) (tenant : Tenant) (record : Bytes) (score : Double) :
    (state.push tenant record score).Stocked ((tenant, record) :: used) where
  sound := push_sound state tenant record score stocked.sound
  pending other bytes present := by
    rw [pendingOf_push] at present
    by_cases same : tenant = other ∧ record = bytes
    · rw [same.1, same.2]
      exact List.mem_cons_self
    · refine List.mem_cons_of_mem _ (stocked.pending other bytes ?_)
      by_cases sameTenant : tenant = other
      · subst sameTenant
        have differ : record ≠ bytes := fun sameRecord => same ⟨rfl, sameRecord⟩
        simpa [differ] using present
      · simpa [sameTenant] using present

theorem serve (stocked : state.Stocked used) (tenant : Tenant) (record : Bytes) :
    (state.serve tenant record).Stocked used where
  sound := serve_sound state tenant record stocked.sound
  pending other bytes present := by
    refine stocked.pending other bytes ?_
    rw [pendingOf_serve state tenant other record stocked.sound] at present
    by_cases same : tenant = other
    · subst same
      by_cases taken : record = bytes <;> simp [taken] at present ⊢
      exact present
    · simpa [same] using present

theorem dismiss (stocked : state.Stocked used) (tenant : Tenant) (drained : ¬state.Waits tenant) :
    (state.dismiss tenant).Stocked used where
  sound := dismiss_sound state tenant stocked.sound drained
  pending other bytes present := by
    rw [pendingOf_dismiss state tenant other stocked.sound drained] at present
    exact stocked.pending other bytes present

theorem size_push (stocked : state.Stocked used) (tenant other : Tenant) (record : Bytes)
    (score : Double) (fresh : (tenant, record) ∉ used) :
    ((state.push tenant record score).pendingOf other).size =
      (state.pendingOf other).size + if tenant = other then 1 else 0 := by
  rw [pendingOf_push]
  split
  · rename_i same
    subst same
    have absent : (state.pendingOf tenant).score? record = none :=
      Option.not_isSome_iff_eq_none.mp (mt (stocked.pending tenant record) fresh)
    exact ScoredSet.size_insert _ record score (stocked.sound.pendingInStep tenant) absent
  · rfl

end Stocked

theorem size_serve (state : QueueState) (tenant other : Tenant) (record : Bytes)
    (sound : state.Sound) (score : Double)
    (present : (state.pendingOf tenant).score? record = some score) :
    ((state.serve tenant record).pendingOf other).size =
      (state.pendingOf other).size - if tenant = other then 1 else 0 := by
  rw [pendingOf_serve state tenant other record sound]
  split
  · rename_i same
    subst same
    have shrunk := ScoredSet.size_erase _ record score (sound.pendingInStep tenant) present
    omega
  · rfl

/-- Two states that pops cannot tell apart: the registries are the same, and each tenant has as
many records in one as in the other. -/
structure Matched (used : List (Tenant × Bytes)) (first second : QueueState) : Prop where
  stocked : first.Stocked used
  otherStocked : second.Stocked used
  registry : first.registry = second.registry
  sizes : ∀ tenant, (first.pendingOf tenant).size = (second.pendingOf tenant).size

namespace Matched
variable {used : List (Tenant × Bytes)} {first second : QueueState}

theorem inFlight (matched : Matched used first second) (tenant : Tenant) :
    first.inFlight tenant = second.inFlight tenant := by
  rw [QueueState.inFlight, QueueState.inFlight, matched.registry]

theorem waits_iff (matched : Matched used first second) (tenant : Tenant) :
    first.Waits tenant ↔ second.Waits tenant := by
  rw [← not_iff_not, ← size_eq_zero_iff, ← size_eq_zero_iff, matched.sizes tenant]

theorem push (matched : Matched used first second) (tenant : Tenant) (record : Bytes)
    (score otherScore : Double) (fresh : (tenant, record) ∉ used) :
    Matched ((tenant, record) :: used) (first.push tenant record score)
      (second.push tenant record otherScore) where
  stocked := matched.stocked.push tenant record score
  otherStocked := matched.otherStocked.push tenant record otherScore
  registry := by simp only [QueueState.push, matched.registry]
  sizes other := by
    rw [matched.stocked.size_push tenant other record score fresh,
      matched.otherStocked.size_push tenant other record otherScore fresh, matched.sizes other]

theorem release (matched : Matched used first second) (tenant : Tenant) :
    Matched used (first.release tenant) (second.release tenant) where
  stocked := ⟨release_sound first tenant matched.stocked.sound, matched.stocked.pending⟩
  otherStocked :=
    ⟨release_sound second tenant matched.otherStocked.sound, matched.otherStocked.pending⟩
  registry := by simp only [QueueState.release, matched.registry]
  sizes := matched.sizes

/-- The records taken from the two may differ. -/
theorem serve (matched : Matched used first second) (tenant : Tenant) (record otherRecord : Bytes)
    (score otherScore : Double)
    (present : (first.pendingOf tenant).score? record = some score)
    (otherPresent : (second.pendingOf tenant).score? otherRecord = some otherScore) :
    Matched used (first.serve tenant record) (second.serve tenant otherRecord) where
  stocked := matched.stocked.serve tenant record
  otherStocked := matched.otherStocked.serve tenant otherRecord
  registry := by simp only [QueueState.serve, matched.registry]
  sizes other := by
    rw [size_serve first tenant other record matched.stocked.sound score present,
      size_serve second tenant other otherRecord matched.otherStocked.sound otherScore otherPresent,
      matched.sizes other]

theorem dismiss (matched : Matched used first second) (tenant : Tenant)
    (drained : ¬first.Waits tenant) :
    Matched used (first.dismiss tenant) (second.dismiss tenant) where
  stocked := matched.stocked.dismiss tenant drained
  otherStocked := matched.otherStocked.dismiss tenant (mt (matched.waits_iff tenant).mpr drained)
  registry := by simp only [QueueState.dismiss, matched.registry]
  sizes other := by
    rw [pendingOf_dismiss first tenant other matched.stocked.sound drained,
      pendingOf_dismiss second tenant other matched.otherStocked.sound
        (mt (matched.waits_iff tenant).mpr drained), matched.sizes other]

/-- A pop turns to the same tenant in both. -/
theorem pop (matched : Matched used first second) :
    ∃ outcome otherOutcome next otherNext, first.pop = .ok (outcome, next) ∧
      second.pop = .ok (otherOutcome, otherNext) ∧ outcome.choice = otherOutcome.choice ∧
      Matched used next otherNext := by
  rcases pop_cases first matched.stocked.sound with
    ⟨popped, nobody⟩ | ⟨tenant, count, leading, result⟩
  · rcases pop_cases second matched.otherStocked.sound with
      ⟨otherPopped, _⟩ | ⟨other, otherCount, otherLeading, _⟩
    · exact ⟨_, _, _, _, popped, otherPopped, rfl, matched⟩
    · have registered : second.inFlight other = some otherCount := otherLeading.1
      rw [← matched.inFlight other, nobody other] at registered
      contradiction
  · rcases pop_cases second matched.otherStocked.sound with
      ⟨_, nobody⟩ | ⟨other, otherCount, otherLeading, otherResult⟩
    · have registered : first.inFlight tenant = some count := leading.1
      rw [matched.inFlight tenant, nobody tenant] at registered
      contradiction
    · have same : tenant = other := by
        rw [← matched.registry] at otherLeading
        have taken := leading.popFirst? matched.stocked.sound.registryInStep
        rw [otherLeading.popFirst? matched.stocked.sound.registryInStep, Option.some.injEq,
          Prod.mk.injEq] at taken
        exact Tenant.name_injective taken.1.symm
      subst same
      -- Both have a record of the tenant or neither has, the sets being of one size.
      rcases result with ⟨record, score, lowest, popped⟩ | ⟨drained, popped⟩
      · rcases otherResult with ⟨otherRecord, otherScore, otherLowest, otherPopped⟩ | ⟨drained, _⟩
        · exact ⟨_, _, _, _, popped, otherPopped, rfl,
            matched.serve tenant record otherRecord score otherScore lowest.1 otherLowest.1⟩
        · have waits : first.Waits tenant := ⟨record, by rw [lowest.1]; rfl⟩
          exact absurd ((matched.waits_iff tenant).mp waits) drained
      · rcases otherResult with ⟨otherRecord, otherScore, otherLowest, _⟩ | ⟨_, otherPopped⟩
        · have waits : second.Waits tenant := ⟨otherRecord, by rw [otherLowest.1]; rfl⟩
          exact absurd ((matched.waits_iff tenant).mpr waits) drained
        · exact ⟨_, _, _, _, popped, otherPopped, rfl, matched.dismiss tenant drained⟩

theorem of_kept (matched : Matched used first second) {next otherNext : QueueState}
    (sound : next.Sound) (otherSound : otherNext.Sound)
    (pending : next.pending = first.pending) (otherPending : otherNext.pending = second.pending)
    (registry : next.registry = first.registry) (otherRegistry : otherNext.registry = second.registry) :
    Matched used next otherNext := by
  have pendingOf (tenant : Tenant) : next.pendingOf tenant = first.pendingOf tenant := by
    rw [QueueState.pendingOf, QueueState.pendingOf, pending]
  have otherPendingOf (tenant : Tenant) :
      otherNext.pendingOf tenant = second.pendingOf tenant := by
    rw [QueueState.pendingOf, QueueState.pendingOf, otherPending]
  exact {
    stocked := ⟨sound, fun tenant record present =>
      matched.stocked.pending tenant record (pendingOf tenant ▸ present)⟩
    otherStocked := ⟨otherSound, fun tenant record present =>
      matched.otherStocked.pending tenant record (otherPendingOf tenant ▸ present)⟩
    registry := by rw [registry, otherRegistry, matched.registry]
    sizes := by
      intro tenant
      rw [pendingOf tenant, otherPendingOf tenant, matched.sizes tenant] }

/-- The same call, but for a score, about two queues that match. -/
theorem after (matched : Matched used first second) {call other : Call}
    (rescored : Call.Rescored call other) (fresh : ∀ pair ∈ Call.pushed? call.queue call, pair ∉ used) :
    Matched ((Call.pushed? call.queue call).toList ++ used) (first.after call) (second.after other) := by
  cases rescored with
  | push queue tenant record score otherScore =>
    have new : (tenant, record) ∉ used := fresh _ (by simp [Call.pushed?, Call.queue])
    have pushed := matched.push tenant record score otherScore new
    simpa [Call.pushed?, Call.queue, QueueState.after] using pushed
  | same call =>
    have sound := after_sound first call matched.stocked.sound
    have otherSound := after_sound second call matched.otherStocked.sound
    cases call with
    | push queue tenant record score =>
      have new : (tenant, record) ∉ used := fresh _ (by simp [Call.pushed?, Call.queue])
      have pushed := matched.push tenant record score score new
      simpa [Call.pushed?, Call.queue, QueueState.after] using pushed
    | pop queue =>
      obtain ⟨_, _, next, otherNext, popped, otherPopped, _, kept⟩ := matched.pop
      have result : first.after (.pop queue) = next := by rw [QueueState.after, popped]
      have otherResult : second.after (.pop queue) = otherNext := by
        rw [QueueState.after, otherPopped]
      rw [result, otherResult]
      exact kept
    | release queue tenant => exact matched.release tenant
    | size queue => exact matched
    | activeTenants queue => exact matched
    | addProcessing queue tenant fingerprint deadline =>
      exact matched.of_kept sound otherSound rfl rfl rfl rfl
    | removeProcessing queue tenant fingerprint =>
      exact matched.of_kept sound otherSound rfl rfl rfl rfl
    | expiredProcessing queue tenant now => exact matched
    | setPayload queue fingerprint record =>
      exact matched.of_kept sound otherSound rfl rfl rfl rfl
    | getPayload queue fingerprint => exact matched
    | deletePayload queue fingerprint =>
      exact matched.of_kept sound otherSound rfl rfl rfl rfl

end Matched
end QueueState

namespace MemoryStore

theorem choice?_of_perform (store : MemoryStore) (queue place : String) (outcome : PopOutcome)
    (next : QueueState) (popped : (store.queue place).pop = .ok (outcome, next)) :
    Event.choice? queue ⟨.pop place, (store.perform (.pop place)).1⟩ =
      if place = queue then some outcome.choice else none := by
  have replied : (store.perform (.pop place)).1 = .ok outcome := by
    simp only [perform, popped]
    cases outcome <;> rfl
  rw [replied]
  rfl

theorem choice?_of_rescored {store other : MemoryStore} {queue : String} {call otherCall : Call}
    {used : List (Tenant × Bytes)} (rescored : Call.Rescored call otherCall)
    (matched : (store.queue queue).Matched used (other.queue queue)) :
    Event.choice? queue ⟨call, (store.perform call).1⟩ =
      Event.choice? queue ⟨otherCall, (other.perform otherCall).1⟩ := by
  cases rescored with
  | push place tenant record score otherScore => rfl
  | same call =>
    cases call with
    | pop place =>
      by_cases here : place = queue
      · subst here
        obtain ⟨_, _, _, _, popped, otherPopped, same, _⟩ := matched.pop
        rw [choice?_of_perform store place place _ _ popped,
          choice?_of_perform other place place _ _ otherPopped, if_pos rfl, if_pos rfl, same]
      · have elsewhere (reply : Except Failure PopOutcome) :
            Event.choice? queue ⟨.pop place, reply⟩ = none := by
          cases reply with
          | error failure => rfl
          | ok outcome => exact if_neg here
        rw [elsewhere, elsewhere]
    | _ => rfl

theorem matched_perform {store other : MemoryStore} {queue : String} {call otherCall : Call}
    {used : List (Tenant × Bytes)} (rescored : Call.Rescored call otherCall)
    (matched : (store.queue queue).Matched used (other.queue queue))
    (fresh : ∀ pair ∈ call.pushed? queue, pair ∉ used) :
    ((store.perform call).2.queue queue).Matched ((call.pushed? queue).toList ++ used)
      ((other.perform otherCall).2.queue queue) := by
  have samePlace : otherCall.queue = call.queue := by cases rescored <;> rfl
  rw [queue_perform, queue_perform, samePlace]
  by_cases here : call.queue = queue
  · subst here
    rw [if_pos rfl, if_pos rfl]
    exact matched.after rescored fresh
  · have nothing : call.pushed? queue = none := by
      cases call with
      | push place tenant record score => exact if_neg here
      | _ => rfl
    rw [if_neg here, if_neg here, nothing]
    exact matched

theorem matched_performAll {store other : MemoryStore} {queue : String}
    {calls otherCalls : List Call} {used : List (Tenant × Bytes)}
    (rescored : List.Forall₂ Call.Rescored calls otherCalls)
    (matched : (store.queue queue).Matched used (other.queue queue))
    (distinct : (pushes queue calls).Nodup) (fresh : ∀ pair ∈ pushes queue calls, pair ∉ used) :
    choices queue (store.eventsFrom calls) = choices queue (other.eventsFrom otherCalls) ∧
      ∃ later, ((store.performAll calls).queue queue).Matched later
        ((other.performAll otherCalls).queue queue) := by
  induction rescored generalizing store other used with
  | nil => exact ⟨rfl, used, matched⟩
  | @cons call otherCall rest otherRest first _ ih =>
    have split : pushes queue (call :: rest) = (call.pushed? queue).toList ++ pushes queue rest := by
      unfold pushes
      cases pushed : call.pushed? queue <;> simp [pushed]
    rw [split, List.nodup_append'] at distinct
    rw [split] at fresh
    have next := matched_perform first matched fun pair pushed =>
      fresh pair (List.mem_append_left _ (Option.mem_toList.mpr pushed))
    have unused : ∀ pair ∈ pushes queue rest, pair ∉ (call.pushed? queue).toList ++ used := by
      intro pair pushed inside
      rcases List.mem_append.mp inside with now | before
      · exact distinct.2.2 now pushed
      · exact fresh pair (List.mem_append_right _ pushed) before
    obtain ⟨same, kept⟩ := ih next distinct.2.1 unused
    refine ⟨?_, kept⟩
    simp only [eventsFrom, choices, List.filterMap_cons] at same ⊢
    rw [choice?_of_rescored first matched, same]

def Replays (queue : String) (tenant : Tenant) (store next : MemoryStore) (event : Event) : Prop :=
  ∀ later, Sight.replay ((store.queue queue).pendingOf tenant)
      ((Sight.ofEvent? queue tenant event).toList ++ later) =
    ((Event.taken? queue tenant event).toList ++
        (Sight.replay ((next.queue queue).pendingOf tenant) later).1,
      (Sight.replay ((next.queue queue).pendingOf tenant) later).2)

theorem Replays.of_unseen {queue : String} {tenant : Tenant} {store next : MemoryStore}
    {event : Event} (unseen : Sight.ofEvent? queue tenant event = none)
    (nothing : Event.taken? queue tenant event = none)
    (kept : (next.queue queue).pendingOf tenant = (store.queue queue).pendingOf tenant) :
    Replays queue tenant store next event := by
  intro later
  rw [unseen, nothing, kept]
  rfl

theorem replays_push (store : MemoryStore) (place queue : String) (owner tenant : Tenant)
    (record : Bytes) (score : Double) :
    Replays queue tenant store (store.perform (.push place owner record score)).2
      ⟨.push place owner record score, .ok ()⟩ := by
  by_cases own : place = queue ∧ owner = tenant
  · obtain ⟨rfl, rfl⟩ := own
    intro later
    rw [queue_perform]
    simp [Call.queue, QueueState.after, Sight.ofEvent?, Event.taken?, Sight.replay]
  · refine Replays.of_unseen (if_neg own) rfl ?_
    rw [queue_perform]
    split
    · rename_i here
      have foreign : owner ≠ tenant := fun same => own ⟨here, same⟩
      simp only [Call.queue] at here
      simp [Call.queue, QueueState.after, foreign, here]
    · rfl

theorem replays_pop (store : MemoryStore) (place queue : String) (tenant : Tenant)
    (sound : store.Sound) :
    Replays queue tenant store (store.perform (.pop place)).2
      ⟨.pop place, (store.perform (.pop place)).1⟩ := by
  rcases perform_pop_cases store place sound with
    ⟨performed, _⟩ | ⟨owner, count, _, ⟨record, score, lowest, performed⟩ | ⟨drained, performed⟩⟩
  · rw [performed]
    exact Replays.of_unseen rfl rfl rfl
  · rw [performed]
    by_cases own : place = queue ∧ owner = tenant
    · obtain ⟨rfl, rfl⟩ := own
      intro later
      have taken := lowest.popFirst? ((sound place).pendingInStep owner)
      rw [queue_setQueue_eq, if_pos rfl, QueueState.pendingOf_serve _ _ _ _ (sound place)]
      simp [Sight.ofEvent?, Event.taken?, Sight.replay, taken]
    · refine Replays.of_unseen (if_neg own) (if_neg own) ?_
      rw [queue_setQueue_eq]
      split
      · rename_i here
        have foreign : owner ≠ tenant := fun same => own ⟨here, same⟩
        rw [QueueState.pendingOf_serve _ _ _ _ (sound place), if_neg foreign, here]
      · rfl
  · rw [performed]
    refine Replays.of_unseen rfl rfl ?_
    rw [queue_setQueue_eq]
    split
    · rename_i here
      rw [QueueState.pendingOf_dismiss _ _ _ (sound place) drained, here]
    · rfl

theorem replays_perform (store : MemoryStore) (call : Call) (queue : String) (tenant : Tenant)
    (sound : store.Sound) :
    Replays queue tenant store (store.perform call).2 ⟨call, (store.perform call).1⟩ := by
  have unmoved (moved : ((store.queue call.queue).after call).pendingOf tenant =
      (store.queue call.queue).pendingOf tenant) :
      ((store.perform call).2.queue queue).pendingOf tenant =
        (store.queue queue).pendingOf tenant := by
    rw [queue_perform]
    split
    · rename_i here
      rw [moved, here]
    · rfl
  cases call with
  | push place owner record score => exact replays_push store place queue owner tenant record score
  | pop place => exact replays_pop store place queue tenant sound
  | size place => exact Replays.of_unseen rfl rfl (unmoved rfl)
  | release place owner => exact Replays.of_unseen rfl rfl (unmoved rfl)
  | activeTenants place => exact Replays.of_unseen rfl rfl (unmoved rfl)
  | addProcessing place owner fingerprint deadline =>
    exact Replays.of_unseen rfl rfl (unmoved rfl)
  | removeProcessing place owner fingerprint => exact Replays.of_unseen rfl rfl (unmoved rfl)
  | expiredProcessing place owner now => exact Replays.of_unseen rfl rfl (unmoved rfl)
  | setPayload place fingerprint bytes => exact Replays.of_unseen rfl rfl (unmoved rfl)
  | getPayload place fingerprint => exact Replays.of_unseen rfl rfl (unmoved rfl)
  | deletePayload place fingerprint => exact Replays.of_unseen rfl rfl (unmoved rfl)

theorem replay_eventsFrom (store : MemoryStore) (calls : List Call) (queue : String)
    (tenant : Tenant) (sound : store.Sound) :
    Sight.replay ((store.queue queue).pendingOf tenant)
        (sights queue tenant (store.eventsFrom calls)) =
      (takenRecords queue tenant (store.eventsFrom calls),
        ((store.performAll calls).queue queue).pendingOf tenant) := by
  induction calls generalizing store with
  | nil => rfl
  | cons call rest ih =>
    have step := replays_perform store call queue tenant sound
      (sights queue tenant ((store.perform call).2.eventsFrom rest))
    rw [ih _ (perform_sound store call sound)] at step
    have seen : sights queue tenant (store.eventsFrom (call :: rest)) =
        (Sight.ofEvent? queue tenant ⟨call, (store.perform call).1⟩).toList ++
          sights queue tenant ((store.perform call).2.eventsFrom rest) := by
      simp only [eventsFrom, sights, List.filterMap_cons]
      cases Sight.ofEvent? queue tenant ⟨call, (store.perform call).1⟩ <;> rfl
    have taken : takenRecords queue tenant (store.eventsFrom (call :: rest)) =
        (Event.taken? queue tenant ⟨call, (store.perform call).1⟩).toList ++
          takenRecords queue tenant ((store.perform call).2.eventsFrom rest) := by
      simp only [eventsFrom, takenRecords, List.filterMap_cons]
      cases Event.taken? queue tenant ⟨call, (store.perform call).1⟩ <;> rfl
    rw [seen, taken, step]
    rfl

/-- In two runs in which a tenant sees the same, its records come back in the same sequence and the
same ones stay pending. In two runs that differ only in the scores of pushes, no record of a tenant
being pushed twice, the pops turn to the same tenants, and at each point every tenant has the same
tasks in flight. -/
theorem tenants_apart (queue : String) :
    (∀ calls otherCalls tenant,
      sights queue tenant (history calls) = sights queue tenant (history otherCalls) →
        takenRecords queue tenant (history calls) =
            takenRecords queue tenant (history otherCalls) ∧
          ((after calls).queue queue).pendingOf tenant =
            ((after otherCalls).queue queue).pendingOf tenant) ∧
    ∀ calls otherCalls, List.Forall₂ Call.Rescored calls otherCalls →
      (pushes queue calls).Nodup →
        choices queue (history calls) = choices queue (history otherCalls) ∧
          ∀ made tenant, ((after (calls.take made)).queue queue).inFlight tenant =
            ((after (otherCalls.take made)).queue queue).inFlight tenant := by
  have soundEmpty : empty.Sound := fun _ => QueueState.empty_sound
  constructor
  · intro calls otherCalls tenant same
    have replayed := replay_eventsFrom empty calls queue tenant soundEmpty
    have otherReplayed := replay_eventsFrom empty otherCalls queue tenant soundEmpty
    have both := replayed.symm.trans
      ((congrArg (Sight.replay ((empty.queue queue).pendingOf tenant)) same).trans otherReplayed)
    exact Prod.mk.inj both
  · intro calls otherCalls rescored distinct
    have nothing : QueueState.empty.Stocked [] :=
      ⟨QueueState.empty_sound, fun tenant record present => by
        simp [QueueState.pendingOf, QueueState.empty] at present⟩
    have matched : (empty.queue queue).Matched [] (empty.queue queue) :=
      ⟨nothing, nothing, rfl, fun _ => rfl⟩
    refine ⟨(matched_performAll rescored matched distinct fun _ _ => List.not_mem_nil).1, ?_⟩
    intro made tenant
    have fewer : (pushes queue (calls.take made)).Nodup :=
      distinct.sublist ((List.take_sublist made calls).filterMap _)
    obtain ⟨_, kept⟩ := (matched_performAll (List.forall₂_take made rescored) matched fewer
      fun _ _ => List.not_mem_nil).2
    exact kept.inFlight tenant

def alone : List Call := [.push "q" ⟨1⟩ [97] ⟨0⟩, .pop "q"]

def crowded (score : Double) : List Call :=
  [.push "q" ⟨2⟩ [98] score, .push "q" ⟨1⟩ [97] ⟨0⟩, .pop "q"]

theorem tenants_apart_crowded :
    takenRecords "q" ⟨1⟩ (history alone) = takenRecords "q" ⟨1⟩ (history (crowded ⟨0⟩)) ∧
      choices "q" (history (crowded ⟨0⟩)) = choices "q" (history (crowded ⟨0xbff0000000000000⟩)) ∧
      choices "q" (history (crowded ⟨0⟩)) = [.served ⟨1⟩] := by
  have seen : sights "q" ⟨1⟩ (history alone) = sights "q" ⟨1⟩ (history (crowded ⟨0⟩)) := by
    decide +kernel
  have rescored : List.Forall₂ Call.Rescored (crowded ⟨0⟩) (crowded ⟨0xbff0000000000000⟩) :=
    .cons (.push _ _ _ _ _) (.cons (.same _) (.cons (.same _) .nil))
  refine ⟨((tenants_apart "q").1 alone (crowded ⟨0⟩) ⟨1⟩ seen).1,
    ((tenants_apart "q").2 _ _ rescored (by decide)).1, by decide +kernel⟩

end MemoryStore
end TenantQueue
