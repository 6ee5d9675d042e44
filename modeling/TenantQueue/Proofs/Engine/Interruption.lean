import TenantQueue.Proofs.Disruption
import TenantQueue.Proofs.Engine.Clearance

/-! What a sweep leaves behind when one of its calls is disrupted. The entries before the one that it
has come to have been delivered or dropped, and that one's task is entered again before its entry is
removed, so that at no time a task is lost. -/
namespace TenantQueue

namespace Program
variable {α σ : Type} {backend : Backend σ} {asked : Call} {state last : σ}

theorem Comes.allowed {program : Program α} (comes : program.Comes backend state asked last)
    (Allowed : Call → Prop) (makes : program.Makes Allowed) :
    Allowed asked := by
  induction comes with
  | here => exact makes.1
  | answered _ _ ih => exact ih (makes.2 _)
  | refused _ _ ih => exact ih (makes.2 _)
  | noted _ ih => exact ih makes

end Program

namespace Engine

def readable? (record? : Option Bytes) : Option Task :=
  record?.bind fun record => (Task.decode record).toOption

theorem fate_of_unreadable (engine : Engine) (queue : String) (now : Instant) (record? : Option Bytes)
    (nothing : readable? record? = none) : engine.fate queue now record? = .dropped := by
  cases record? with
  | none => rfl
  | some record =>
    rw [readable?, Option.bind_some] at nothing
    unfold fate
    dsimp only
    cases decoded : Task.decode record with
    | error failure => rfl
    | ok task => simp [decoded, Except.toOption] at nothing

theorem fate_of_readable (engine : Engine) (queue : String) (now : Instant) (record? : Option Bytes)
    (task : Task) (kept : readable? record? = some task) :
    engine.fate queue now record? =
      match redeliveryTime? now (engine.config.backoff (task.errorCount + 1)) with
      | none => .beyondCalendar
      | some time =>
        match engine.check queue task with
        | .error failure => .refused failure
        | .ok () => .requeued task.failedAgain time := by
  obtain ⟨record, rfl, read⟩ := Option.bind_eq_some_iff.mp kept
  cases decoded : Task.decode record with
  | error failure => simp [decoded, Except.toOption] at read
  | ok stored =>
    rw [decoded, Except.toOption, Option.some.injEq] at read
    subst read
    unfold fate
    dsimp only
    generalize Task.decode record = result at decoded
    subst decoded
    rfl

theorem not_dropped_of_readable (engine : Engine) (queue : String) (now : Instant)
    (record? : Option Bytes) (task : Task) (kept : readable? record? = some task) :
    engine.fate queue now record? ≠ .dropped := by
  rw [fate_of_readable engine queue now record? task kept]
  split
  · nofun
  · split <;> nofun

theorem failedAgain_of_requeued (engine : Engine) (queue : String) (now : Instant)
    (record? : Option Bytes) (task again : Task) (time : Instant)
    (kept : readable? record? = some task)
    (requeued : engine.fate queue now record? = .requeued again time) : again = task.failedAgain := by
  rw [fate_of_readable engine queue now record? task kept] at requeued
  split at requeued
  · contradiction
  · split at requeued
    · contradiction
    · exact (Fate.requeued.inj requeued).1.symm

end Engine

namespace QueueState

/-- The queues that there are while an entry meets its fate, before it is dropped completely. -/
def partway (state : QueueState) (tenant : Tenant) (fingerprint : Fingerprint) :
    Fate → List QueueState
  | .dropped => [state, state.removeProcessing tenant fingerprint]
  | .requeued task time =>
    let pushed := state.push tenant task.encode (score time .normal)
    let released := pushed.release tenant
    [state, pushed, released, released.removeProcessing tenant fingerprint]
  | .refused _ => [state]
  | .beyondCalendar => [state]

theorem self_mem_partway (state : QueueState) (tenant : Tenant) (fingerprint : Fingerprint)
    (fate : Fate) : state ∈ state.partway tenant fingerprint fate := by
  cases fate <;> exact List.mem_cons_self ..

theorem payloads_partway {state next : QueueState} {tenant : Tenant} {fingerprint : Fingerprint}
    {fate : Fate} (member : next ∈ state.partway tenant fingerprint fate) :
    next.payloads = state.payloads := by
  cases fate with
  | dropped =>
    simp only [partway, List.mem_cons, List.not_mem_nil, or_false] at member
    rcases member with rfl | rfl <;> rfl
  | requeued task time =>
    simp only [partway, List.mem_cons, List.not_mem_nil, or_false] at member
    rcases member with rfl | rfl | rfl | rfl <;> rfl
  | refused failure => rw [List.mem_singleton.mp member]
  | beyondCalendar => rw [List.mem_singleton.mp member]

theorem pending_partway {state next : QueueState} {tenant other : Tenant} {fingerprint : Fingerprint}
    {fate : Fate} {record : Bytes} (member : next ∈ state.partway tenant fingerprint fate)
    (pending : ((state.pendingOf other).score? record).isSome) :
    ((next.pendingOf other).score? record).isSome := by
  cases fate with
  | dropped =>
    simp only [partway, List.mem_cons, List.not_mem_nil, or_false] at member
    rcases member with rfl | rfl <;> exact pending
  | requeued task time =>
    have entered := pending_settle state tenant other fingerprint (.requeued task time) record pending
    simp only [partway, List.mem_cons, List.not_mem_nil, or_false] at member
    rcases member with rfl | rfl | rfl | rfl
    · exact pending
    · exact entered
    · exact entered
    · exact entered
  | refused failure => exact List.mem_singleton.mp member ▸ pending
  | beyondCalendar => exact List.mem_singleton.mp member ▸ pending

theorem processing_partway {state next : QueueState} {tenant : Tenant} {fingerprint : Fingerprint}
    {fate : Fate} (sound : state.Sound) (member : next ∈ state.partway tenant fingerprint fate) :
    next.processing = state.processing ∨
      (∀ other, next.processingOf other =
          if tenant = other then (state.processingOf tenant).erase fingerprint
          else state.processingOf other) ∧
        (fate = .dropped ∨ ∃ task time, fate = .requeued task time ∧
          ((next.pendingOf tenant).score? task.encode).isSome) := by
  cases fate with
  | dropped =>
    simp only [partway, List.mem_cons, List.not_mem_nil, or_false] at member
    rcases member with rfl | rfl
    · exact Or.inl rfl
    · exact Or.inr ⟨fun other => processingOf_removeProcessing state tenant other fingerprint sound,
        Or.inl rfl⟩
  | requeued task time =>
    have released := release_sound _ tenant (push_sound state tenant task.encode (score time .normal)
      sound)
    simp only [partway, List.mem_cons, List.not_mem_nil, or_false] at member
    rcases member with rfl | rfl | rfl | rfl
    · exact Or.inl rfl
    · exact Or.inl rfl
    · exact Or.inl rfl
    · refine Or.inr ⟨fun other => processingOf_removeProcessing _ tenant other fingerprint released,
        Or.inr ⟨task, time, rfl, ?_⟩⟩
      change (((state.push tenant _ _).pendingOf tenant).score? _).isSome
      simp
  | refused failure => exact Or.inl (List.mem_singleton.mp member ▸ rfl)
  | beyondCalendar => exact Or.inl (List.mem_singleton.mp member ▸ rfl)

def Stops (engine : Engine) (queue : String) (now : Instant) (entries : List (Tenant × Fingerprint))
    (state last : QueueState) : Prop :=
  ∃ before rest count middle, entries = before ++ rest ∧
    Delivers engine queue now before state count middle ∧
    (last = middle ∨ ∃ tenant fingerprint others, rest = (tenant, fingerprint) :: others ∧
      last ∈ middle.partway tenant fingerprint
        (engine.fate queue now (middle.payloads.get? fingerprint)))

variable {engine : Engine} {queue : String} {now : Instant}
  {first second entries : List (Tenant × Fingerprint)} {state middle last : QueueState} {count : Nat}

theorem stops_self (engine : Engine) (queue : String) (now : Instant)
    (entries : List (Tenant × Fingerprint)) (state : QueueState) :
    Stops engine queue now entries state state :=
  ⟨[], entries, 0, state, rfl, .nil state, Or.inl rfl⟩

theorem Delivers.stops_append (once : Delivers engine queue now first state count middle)
    (twice : Stops engine queue now second middle last) :
    Stops engine queue now (first ++ second) state last := by
  obtain ⟨before, rest, others, reached, split, delivers, stopped⟩ := twice
  refine ⟨first ++ before, rest, count + others, reached, ?_, once.append delivers, stopped⟩
  rw [split, List.append_assoc]

theorem Stops.append (once : Stops engine queue now first state last) :
    Stops engine queue now (first ++ second) state last := by
  obtain ⟨before, rest, count, reached, split, delivers, stopped⟩ := once
  refine ⟨before, rest ++ second, count, reached, ?_, delivers, ?_⟩
  · rw [split, List.append_assoc]
  · rcases stopped with same | ⟨tenant, fingerprint, others, next, partway⟩
    · exact Or.inl same
    · exact Or.inr ⟨tenant, fingerprint, others ++ second, by rw [next, List.cons_append], partway⟩

theorem Sweeps.stops {outcome : Outcome Nat}
    (sweeps : Sweeps engine queue now entries state outcome last) :
    Stops engine queue now entries state last := by
  rcases sweeps with ⟨count, _, delivers⟩ |
    ⟨before, tenant, fingerprint, rest, count, split, delivers, _, _⟩
  · exact ⟨entries, [], count, last, (List.append_nil _).symm, delivers, Or.inl rfl⟩
  · exact ⟨before, _, count, last, split, delivers, Or.inl rfl⟩

/-- Each fingerprint has an entry for one tenant at most. -/
def Alone (state : QueueState) : Prop :=
  ∀ first second fingerprint, ((state.processingOf first).score? fingerprint).isSome →
    ((state.processingOf second).score? fingerprint).isSome → first = second

/-- Wherever a sweep stops, an entry and what is kept for it are as they were, unless the sweep came to
it; then its task is pending with one error more. -/
theorem Stops.keeps_or_requeues (stops : Stops engine queue now entries state last)
    (sound : state.Sound) (alone : state.Alone)
    (present : ∀ tenant fingerprint, (tenant, fingerprint) ∈ entries →
      ((state.processingOf tenant).score? fingerprint).isSome)
    (tenant : Tenant) (fingerprint : Fingerprint) (deadline : Double)
    (found : (state.processingOf tenant).score? fingerprint = some deadline) :
    ((last.processingOf tenant).score? fingerprint = some deadline ∧
        last.payloads.get? fingerprint = state.payloads.get? fingerprint) ∨
      (tenant, fingerprint) ∈ entries ∧
        ∀ record task, state.payloads.get? fingerprint = some record →
          Task.decode record = .ok task →
          ((last.pendingOf tenant).score? task.failedAgain.encode).isSome := by
  obtain ⟨before, rest, count, middle, split, delivers, stopped⟩ := stops
  have own (owner : Tenant) (listed : (owner, fingerprint) ∈ entries) : owner = tenant :=
    alone owner tenant fingerprint (present _ _ listed) (Option.isSome_of_eq_some found)
  have earlier {entry : Tenant × Fingerprint} (listed : entry ∈ before) : entry ∈ entries :=
    split ▸ List.mem_append_left _ listed
  by_cases taken : (tenant, fingerprint) ∈ before
  · refine Or.inr ⟨earlier taken, ?_⟩
    intro record task kept decoded
    obtain ⟨owner, listed, pending⟩ :=
      delivers.requeued tenant fingerprint record task taken kept decoded
    rw [own owner (earlier listed)] at pending
    rcases stopped with rfl | ⟨_, _, _, _, partway⟩
    · exact pending
    · exact pending_partway partway pending
  · have entry : (middle.processingOf tenant).score? fingerprint = some deadline := by
      rw [delivers.processing sound, if_neg taken, found]
    have kept : middle.payloads.get? fingerprint = state.payloads.get? fingerprint := by
      rw [delivers.payloads, if_neg]
      intro named
      obtain ⟨⟨owner, _⟩, listed, rfl⟩ := List.mem_map.mp named
      exact taken (own owner (earlier listed) ▸ listed)
    rcases stopped with rfl | ⟨turn, next, others, following, partway⟩
    · exact Or.inl ⟨entry, kept⟩
    · have keptToo : last.payloads.get? fingerprint = state.payloads.get? fingerprint := by
        rw [payloads_partway partway, kept]
      rcases processing_partway (delivers.sound sound) partway with same | ⟨erased, fate⟩
      · rw [processingOf, same]
        exact Or.inl ⟨entry, keptToo⟩
      · by_cases its : turn = tenant ∧ next = fingerprint
        · obtain ⟨rfl, rfl⟩ := its
          refine Or.inr ⟨by rw [split, following]; simp, ?_⟩
          intro record task present decoded
          have readable : Engine.readable? (middle.payloads.get? next) = some task := by
            rw [kept, present, Engine.readable?, Option.bind_some, decoded]
            rfl
          rcases fate with dropped | ⟨again, time, requeued, pending⟩
          · exact absurd dropped (engine.not_dropped_of_readable queue now _ task readable)
          · exact engine.failedAgain_of_requeued queue now _ task again time readable requeued ▸ pending
        · refine Or.inl ⟨?_, keptToo⟩
          rw [erased]
          split
          · rename_i same
            subst same
            rw [ScoredSet.score?_erase, if_neg fun equal => its ⟨rfl, equal⟩, entry]
          · exact entry

end QueueState

namespace Engine
open Program
variable {asked : Call} {store last : MemoryStore}

theorem comes_dropEntry (queue : String) (tenant : Tenant) (fingerprint : Fingerprint)
    (comes : (dropEntry queue tenant fingerprint).Comes MemoryStore.backend store asked last) :
    last = store ∨
      store.Becomes last queue ((store.queue queue).removeProcessing tenant fingerprint) := by
  rcases comes.of_bind with first | ⟨_, middle, removed, second⟩
  · exact Or.inl first.of_perform.2
  · have same := removed.unique (ends_perform _ rfl)
    rw [second.of_perform.2, same.2]
    exact Or.inr (store.becomes_perform (.removeProcessing queue tenant fingerprint))

theorem comes_storedTask (queue : String) (tenant : Tenant) (fingerprint : Fingerprint)
    (comes : (storedTask queue tenant fingerprint).Comes MemoryStore.backend store asked last) :
    last = store := by
  rcases comes.of_bind with first | ⟨record?, middle, _, second⟩
  · exact first.of_perform.2
  · refine (second.allowed (fun _ => False) ?_).elim
    cases record? with
    | none => exact makes_bind _ _ trivial fun _ => trivial
    | some record =>
      dsimp only
      split
      · trivial
      · exact makes_bind _ _ trivial fun _ => trivial

theorem comes_enqueueAt (engine : Engine) (queue : String) (tenant : Tenant) (task : Task)
    (time : Instant) (priority : Priority)
    (comes : (engine.enqueueAt queue tenant task time priority).Comes MemoryStore.backend store asked
      last) : last = store := by
  rcases comes.of_bind with first | ⟨_, middle, checked, second⟩
  · exact (first.allowed (fun _ => False) (makes_ofExcept _)).elim
  · have same : middle = store := by
      cases accepted : engine.check queue task with
      | ok accepts =>
        rw [accepted] at checked
        exact (checked.unique (ends_done ())).2
      | error failure =>
        rw [accepted] at checked
        exact (checked.unique ⟨[], rfl⟩).2
    subst same
    rcases second.of_bind with push | ⟨_, _, _, third⟩
    · exact push.of_perform.2
    · exact (third.allowed (fun _ => False) trivial).elim

theorem accepted_of_requeue (engine : Engine) (queue : String) (tenant : Tenant) (task : Task)
    (now : Instant)
    (ended : (engine.requeue queue tenant task now).Ends MemoryStore.backend store (.ok ()) last) :
    engine.check queue task = .ok () ∧
      ∃ time, redeliveryTime? now (engine.config.backoff (task.errorCount + 1)) = some time := by
  cases due : redeliveryTime? now (engine.config.backoff (task.errorCount + 1)) with
  | none =>
    have crashes : (engine.requeue queue tenant task now).Ends MemoryStore.backend store
        (.crashed .beyondCalendar) store := by
      simp only [requeue, due]
      exact ⟨[], rfl⟩
    cases (ended.unique crashes).1
  | some time =>
    refine ⟨?_, time, rfl⟩
    cases accepted : engine.check queue task with
    | ok accepts => rfl
    | error failure =>
      have refuses : (engine.requeue queue tenant task now).Ends MemoryStore.backend store
          (.failed failure) store := by
        simp only [requeue, due]
        exact (ends_enqueueAt_refused engine store queue tenant task.failedAgain time .normal failure
          accepted).bind_failed
      cases (ended.unique refuses).1

theorem comes_requeue (engine : Engine) (queue : String) (tenant : Tenant) (task : Task)
    (now : Instant)
    (comes : (engine.requeue queue tenant task now).Comes MemoryStore.backend store asked last) :
    last = store ∨ ∃ time,
      redeliveryTime? now (engine.config.backoff (task.errorCount + 1)) = some time ∧
      engine.check queue task = .ok () ∧
      store.Becomes last queue
        ((store.queue queue).push tenant task.failedAgain.encode (score time .normal)) := by
  cases due : redeliveryTime? now (engine.config.backoff (task.errorCount + 1)) with
  | none =>
    simp only [requeue, due] at comes
    cases comes
  | some time =>
    simp only [requeue, due] at comes
    rcases comes.of_bind with entering | ⟨_, entered, enters, second⟩
    · exact Or.inl (comes_enqueueAt engine queue tenant _ time .normal entering)
    · rcases second.of_bind with releasing | ⟨_, _, _, rest⟩
      · refine Or.inr ⟨time, rfl, ?_⟩
        cases accepted : engine.check queue task with
        | error failure =>
          cases (enters.unique (ends_enqueueAt_refused engine store queue tenant task.failedAgain
            time .normal failure accepted)).1
        | ok accepts =>
          obtain ⟨pushed, pushes, becomes⟩ :=
            ends_enqueueAt engine store queue tenant task.failedAgain time .normal accepted
          obtain ⟨_, rfl⟩ := enters.unique pushes
          rw [releasing.of_perform.2]
          exact ⟨rfl, becomes⟩
      · exact (rest.allowed (fun _ => False) trivial).elim

/-- A sweep that comes to a call within the turn of an entry finds the queue partway. -/
theorem comes_requeueEntry (engine : Engine) (queue : String) (tenant : Tenant) (now : Instant)
    (fingerprint : Fingerprint)
    (comes : (engine.requeueEntry queue tenant now fingerprint).Comes MemoryStore.backend store asked
      last) :
    ∃ state ∈ (store.queue queue).partway tenant fingerprint
        (engine.fate queue now ((store.queue queue).payloads.get? fingerprint)),
      store.Becomes last queue state := by
  have unmoved (same : last = store) : ∃ state ∈ (store.queue queue).partway tenant fingerprint
      (engine.fate queue now ((store.queue queue).payloads.get? fingerprint)),
      store.Becomes last queue state :=
    ⟨_, QueueState.self_mem_partway _ _ _ _, same ▸ store.becomes_self queue⟩
  rcases comes.of_bind with first | ⟨task?, middle, stored, second⟩
  · exact unmoved (comes_storedTask queue tenant fingerprint first)
  obtain ⟨found, rfl⟩ := stored.unique (ends_storedTask store queue tenant fingerprint)
  rw [Outcome.ok.injEq] at found
  cases task? with
  | none =>
    rw [fate_of_unreadable engine queue now _ found.symm]
    rcases second.of_bind with dropping | ⟨_, _, _, rest⟩
    · rcases comes_dropEntry queue tenant fingerprint dropping with same | removed
      · exact ⟨_, List.mem_cons_self .., same ▸ middle.becomes_self queue⟩
      · exact ⟨_, by simp [QueueState.partway], removed⟩
    · exact absurd rest (not_comes_done 0)
  | some task =>
    have fate := fate_of_readable engine queue now _ task found.symm
    rcases second.of_bind with requeuing | ⟨_, requeued, requeues, third⟩
    · rcases comes_requeue engine queue tenant task now requeuing with same | ⟨time, due, taken, pushed⟩
      · exact unmoved same
      · simp only [due, taken] at fate
        rw [fate]
        exact ⟨_, by simp [QueueState.partway], pushed⟩
    · obtain ⟨taken, time, due⟩ := accepted_of_requeue engine queue tenant task now requeues
      obtain ⟨again, requeuesToo, released⟩ :=
        ends_requeue engine middle queue tenant task now time due taken
      obtain ⟨_, rfl⟩ := requeues.unique requeuesToo
      simp only [due, taken] at fate
      rw [fate]
      rcases third.of_bind with dropping | ⟨_, _, _, rest⟩
      · rcases comes_dropEntry queue tenant fingerprint dropping with same | removed
        · exact ⟨_, by simp [QueueState.partway], same ▸ released⟩
        · rw [released.queue] at removed
          exact ⟨_, by simp [QueueState.partway], released.trans removed⟩
      · exact absurd rest (not_comes_done 1)

theorem comes_total_cons {α : Type} {work : α → Program Nat} {member : α} {rest : List α}
    (comes : (total work (member :: rest)).Comes MemoryStore.backend store asked last) :
    (work member).Comes MemoryStore.backend store asked last ∨
      ∃ count middle, (work member).Ends MemoryStore.backend store (.ok count) middle ∧
        (total work rest).Comes MemoryStore.backend middle asked last := by
  rcases comes.of_bind with first | ⟨count, middle, ended, second⟩
  · exact Or.inl first
  · rcases second.of_bind with others | ⟨_, _, _, done⟩
    · exact Or.inr ⟨count, middle, ended, others⟩
    · exact absurd done (not_comes_done _)

theorem comes_total_requeueEntry (engine : Engine) (queue : String) (tenant : Tenant)
    (now : Instant) (fingerprints : List Fingerprint)
    (comes : (total (engine.requeueEntry queue tenant now) fingerprints).Comes MemoryStore.backend
      store asked last) :
    ∃ state, store.Becomes last queue state ∧
      QueueState.Stops engine queue now (fingerprints.map fun fingerprint => (tenant, fingerprint))
        (store.queue queue) state := by
  induction fingerprints generalizing store with
  | nil => exact absurd comes (not_comes_done 0)
  | cons fingerprint rest ih =>
    rcases comes_total_cons comes with turn | ⟨count, middle, entryEnds, others⟩
    · obtain ⟨state, partway, becomes⟩ := comes_requeueEntry engine queue tenant now fingerprint turn
      exact ⟨state, becomes, [], _, 0, _, rfl, .nil _, Or.inr ⟨tenant, fingerprint, _, rfl, partway⟩⟩
    · obtain ⟨settled, settles, once⟩ := ends_requeueEntry engine store queue tenant now fingerprint
      obtain ⟨goesOn, rfl⟩ := entryEnds.unique settles
      obtain ⟨state, twice, stops⟩ := ih others
      rw [once.queue] at stops
      have one : QueueState.Delivers engine queue now [(tenant, fingerprint)] (store.queue queue)
          count _ := .cons rfl goesOn.symm (.nil _)
      exact ⟨state, once.trans twice, one.stops_append stops⟩

private theorem comes_total_tenants (engine : Engine) (queue : String) (now : Instant)
    (registered : List (Tenant × Int)) (sound : store.Sound)
    (distinct : (registered.map Prod.fst).Nodup)
    (comes : (total (fun entry => do
        let expired ← Program.perform (.expiredProcessing queue entry.1 now.epochSeconds)
        total (engine.requeueEntry queue entry.1 now) expired) registered).Comes
      MemoryStore.backend store asked last) :
    ∃ state, store.Becomes last queue state ∧
      QueueState.Stops engine queue now ((store.queue queue).expiredOf now.epochSeconds registered)
        (store.queue queue) state := by
  induction registered generalizing store with
  | nil => exact absurd comes (not_comes_done 0)
  | cons entry rest ih =>
    obtain ⟨fresh, tail⟩ := List.nodup_cons.mp distinct
    simp only [QueueState.expiredOf, List.flatMap_cons]
    rcases comes_total_cons comes with turn | ⟨count, middle, turnEnds, others⟩
    · rcases turn.of_bind with asks | ⟨expired, _, read, inside⟩
      · exact ⟨_, asks.of_perform.2 ▸ store.becomes_self queue, QueueState.stops_self ..⟩
      · obtain ⟨same, rfl⟩ := read.unique (ends_perform _ rfl)
        obtain rfl := Outcome.ok.inj same
        obtain ⟨state, becomes, stops⟩ :=
          comes_total_requeueEntry engine queue entry.1 now _ inside
        exact ⟨state, becomes, stops.append⟩
    · obtain ⟨outcome, settled, reached, settles, once, sweeps⟩ :=
        ends_tenantTurn engine store queue entry.1 now
      obtain ⟨rfl, rfl⟩ := turnEnds.unique settles
      have delivers := sweeps.delivers
      obtain ⟨state, twice, stops⟩ := ih (once.sound sound (delivers.sound (sound queue))) tail others
      rw [once.queue, delivers.expiredOf_others (sound queue) now.epochSeconds rest fresh] at stops
      exact ⟨state, once.trans twice, delivers.stops_append stops⟩

/-- A sweep that comes to a call has given some of the expired entries their turns. -/
theorem comes_requeueExpired (engine : Engine) (queue : String) (now : Instant) (sound : store.Sound)
    (comes : (engine.requeueExpired queue now).Comes MemoryStore.backend store asked last) :
    ∃ registered state, (∀ tenant count, (tenant, count) ∈ registered ↔
        (store.queue queue).inFlight tenant = some count) ∧
      store.Becomes last queue state ∧
      QueueState.Stops engine queue now ((store.queue queue).expiredOf now.epochSeconds registered)
        (store.queue queue) state := by
  obtain ⟨registered, lists, distinct, listed⟩ := ends_activeTenants store queue sound
  refine ⟨registered, ?_⟩
  rcases comes.of_bind with first | ⟨answered, _, answers, second⟩
  · exact ⟨_, listed, first.of_perform.2 ▸ store.becomes_self queue, QueueState.stops_self ..⟩
  · obtain ⟨same, rfl⟩ := answers.unique lists
    obtain rfl := Outcome.ok.inj same
    obtain ⟨state, becomes, stops⟩ := comes_total_tenants engine queue now _ sound distinct second
    exact ⟨state, listed, becomes, stops⟩

theorem yields_total {α : Type} (work : α → Program Nat) (members : List α)
    (each : ∀ member, (work member).Yields) : (total work members).Yields := by
  induction members with
  | nil => trivial
  | cons first rest ih =>
    exact yields_bind (each first) fun _ => yields_bind ih fun _ => trivial

theorem yields_dropEntry (queue : String) (tenant : Tenant) (fingerprint : Fingerprint) :
    (dropEntry queue tenant fingerprint).Yields :=
  yields_bind (yields_perform _) fun _ => yields_perform _

theorem yields_requeueEntry (engine : Engine) (queue : String) (tenant : Tenant) (now : Instant)
    (fingerprint : Fingerprint) : (engine.requeueEntry queue tenant now fingerprint).Yields := by
  have stored : (storedTask queue tenant fingerprint).Yields := by
    refine yields_bind (yields_perform _) fun record? => ?_
    cases record? with
    | none => exact yields_bind trivial fun _ => trivial
    | some record =>
      dsimp only
      split
      · trivial
      · exact yields_bind trivial fun _ => trivial
  refine yields_bind stored fun task? => ?_
  cases task? with
  | none => exact yields_bind (yields_dropEntry queue tenant fingerprint) fun _ => trivial
  | some task =>
    have requeues : (engine.requeue queue tenant task now).Yields := by
      unfold requeue
      dsimp only
      split
      · trivial
      · refine yields_bind ?_ fun _ => yields_bind (yields_perform _) fun _ => trivial
        exact yields_bind (yields_ofExcept _) fun _ => yields_bind (yields_perform _) fun _ => trivial
    exact yields_bind requeues fun _ =>
      yields_bind (yields_dropEntry queue tenant fingerprint) fun _ => trivial

theorem yields_requeueExpired (engine : Engine) (queue : String) (now : Instant) :
    (engine.requeueExpired queue now).Yields := by
  refine yields_bind (yields_perform _) fun registered => yields_total _ _ fun entry => ?_
  exact yields_bind (yields_perform _) fun expired =>
    yields_total _ _ fun fingerprint => yields_requeueEntry engine queue entry.1 now fingerprint

/-- Whatever befalls a sweep: the first call that is disrupted ends it, and at its end each entry and
what is kept for it are as they were, or the entry had expired and its task is pending for its tenant with
one error more, if there was one that can be read. -/
theorem requeueExpired_disrupted (engine : Engine) (calls : List Call) (disruptions : Disruptions)
    (counts : Table Call.Kind Nat) (queue : String) (now : Instant)
    (alone : ((MemoryStore.after calls).queue queue).Alone) :
    let state := (MemoryStore.after calls).queue queue
    let start : Disrupted MemoryStore := ⟨MemoryStore.after calls, counts⟩
    ∃ outcome last, (engine.requeueExpired queue now).Ends
        (Disrupted.backend MemoryStore.backend disruptions) start outcome last ∧
      (((engine.requeueExpired queue now).Ends MemoryStore.backend start.store outcome last.store ∧
          Disrupted.Spared disruptions start last) ∨
        ∃ kind disruption, outcome = disruption.outcome kind ∧
          Disrupted.Struck disruptions start last kind disruption) ∧
      ∀ tenant fingerprint deadline,
        (state.processingOf tenant).score? fingerprint = some deadline →
        (((last.store.queue queue).processingOf tenant).score? fingerprint = some deadline ∧
            (last.store.queue queue).payloads.get? fingerprint = state.payloads.get? fingerprint) ∨
          state.Expired tenant fingerprint now.epochSeconds ∧
            ∀ record task, state.payloads.get? fingerprint = some record →
              Task.decode record = .ok task →
              (((last.store.queue queue).pendingOf tenant).score? task.failedAgain.encode).isSome := by
  intro state start
  have sound := MemoryStore.after_sound calls
  obtain ⟨outcome, last, ended, account⟩ := Disrupted.ends_disrupted MemoryStore.backend disruptions
    (engine.requeueExpired queue now) start (yields_requeueExpired engine queue now)
  have stops : ∃ registered, (∀ tenant count, (tenant, count) ∈ registered ↔
        state.inFlight tenant = some count) ∧
      QueueState.Stops engine queue now (state.expiredOf now.epochSeconds registered) state
        (last.store.queue queue) := by
    rcases account with ⟨plain, _⟩ | ⟨asked, disruption, comes, _⟩
    · obtain ⟨registered, _, _, reached, settles, _, listed, becomes, sweeps⟩ :=
        ends_requeueExpired engine start.store queue now sound
      obtain ⟨_, rfl⟩ := plain.unique settles
      exact ⟨registered, listed, becomes.queue ▸ sweeps.stops⟩
    · obtain ⟨registered, reached, listed, becomes, stops⟩ :=
        comes_requeueExpired engine queue now sound comes
      exact ⟨registered, listed, becomes.queue ▸ stops⟩
  obtain ⟨registered, listed, stops⟩ := stops
  have expired (tenant : Tenant) (fingerprint : Fingerprint)
      (member : (tenant, fingerprint) ∈ state.expiredOf now.epochSeconds registered) :=
    state.expired_of_mem_expiredOf now.epochSeconds registered tenant fingerprint (sound queue) listed
      member
  refine ⟨outcome, last, ended, ?_, ?_⟩
  · rcases account with plain | ⟨asked, disruption, _, broken, struck⟩
    · exact Or.inl plain
    · exact Or.inr ⟨asked.kind, disruption, broken, struck⟩
  · intro tenant fingerprint deadline found
    have present (tenant : Tenant) (fingerprint : Fingerprint)
        (member : (tenant, fingerprint) ∈ state.expiredOf now.epochSeconds registered) :
        ((state.processingOf tenant).score? fingerprint).isSome := by
      obtain ⟨_, deadline, found, _⟩ := expired tenant fingerprint member
      exact Option.isSome_of_eq_some found
    refine (stops.keeps_or_requeues (sound queue) alone present tenant fingerprint deadline
      found).imp_right ?_
    exact fun requeued => ⟨expired tenant fingerprint requeued.1, requeued.2⟩

/-- A sweep cannot remove the entry of a task that it has entered again. The task is pending, and its
entry and what is kept for it stay. -/
theorem requeueExpired_disrupted_at_removal :
    let calls : List Call := [.push "q" ⟨1⟩ typed.encode 0, .addProcessing "q" ⟨1⟩ ⟨"f"⟩ 0,
      .setPayload "q" ⟨"f"⟩ typed.encode]
    let removalFails := Fault.disruptions [⟨.removeProcessing, 0, 1, false⟩]
    ((MemoryStore.after calls).queue "q").Alone ∧
      ∃ outcome last, (standard.requeueExpired "q" noon).Ends
          (Disrupted.backend MemoryStore.backend removalFails)
          (Disrupted.ofStore (MemoryStore.after calls)) outcome last ∧
        (((last.store.queue "q").processingOf ⟨1⟩).score? ⟨"f"⟩ = some 0 ∧
            (last.store.queue "q").payloads.get? ⟨"f"⟩ = some typed.encode ∨
          (((last.store.queue "q").pendingOf ⟨1⟩).score? typed.failedAgain.encode).isSome) ∧
        (((last.store.queue "q").pendingOf ⟨1⟩).score? typed.failedAgain.encode).isSome ∧
        ((last.store.queue "q").processingOf ⟨1⟩).score? ⟨"f"⟩ = some 0 ∧
        (last.store.queue "q").payloads.get? ⟨"f"⟩ = some typed.encode := by
  intro calls removalFails
  have entries (tenant : Tenant) (fingerprint : Fingerprint)
      (present : ((((MemoryStore.after calls).queue "q").processingOf tenant).score?
        fingerprint).isSome) : tenant = ⟨1⟩ := by
    by_contra differ
    have fresh : ((MemoryStore.after calls).queue "q").processingOf tenant = ScoredSet.empty := by
      change ((QueueState.empty.push ⟨1⟩ typed.encode 0).addProcessing ⟨1⟩ ⟨"f"⟩ 0).2.processingOf
        tenant = _
      rw [QueueState.processingOf_addProcessing, if_neg fun same => differ same.symm]
      rfl
    rw [fresh, ScoredSet.score?_empty] at present
    contradiction
  have alone : ((MemoryStore.after calls).queue "q").Alone := fun first second fingerprint once also =>
    (entries first fingerprint once).trans (entries second fingerprint also).symm
  have decoded : Task.decode typed.encode = .ok typed := by cbv
  obtain ⟨outcome, last, ended, _, kept⟩ :=
    requeueExpired_disrupted standard calls removalFails Table.empty "q" noon alone
  have ends : (standard.requeueExpired "q" noon).Ends
      (Disrupted.backend MemoryStore.backend removalFails)
      (Disrupted.ofStore (MemoryStore.after calls)) outcome last := ended
  refine ⟨alone, outcome, last, ends,
    (kept ⟨1⟩ ⟨"f"⟩ 0 rfl).imp_right fun requeued => requeued.2 _ typed rfl decoded, ?_⟩
  -- There is one run only, so what it leaves can be evaluated.
  obtain ⟨notices, ran⟩ := ends
  have left : ((standard.requeueExpired "q" noon).run
      (Disrupted.backend MemoryStore.backend removalFails)
      (Disrupted.ofStore (MemoryStore.after calls))).2.2 = last := by rw [ran]
  subst left
  exact ⟨by decide +kernel, by decide +kernel, by decide +kernel⟩

end Engine
end TenantQueue
