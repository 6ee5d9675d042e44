import TenantQueue.Proofs.Engine.Traffic
import TenantQueue.Proofs.Engine.Visibility

/-! A queue is drained evenly. While the engine is asked for one task after the other and nothing else
happens, all tenants that still wait have been served equally often or once more, whatever their
backlogs, as each serving goes to one of those that have been served least. -/
namespace TenantQueue

namespace QueueState
variable {start state next : QueueState} {tenant : Tenant} {record : Bytes} {count : Int}
  {served : Tenant → Nat} {level : Nat}

def Readable (state : QueueState) : Prop :=
  ∀ tenant record, ((state.pendingOf tenant).score? record).isSome →
    ∃ task, Task.decode record = .ok task

def Idle (state : QueueState) : Prop := ∀ tenant count, state.inFlight tenant = some count → count = 0

theorem Idle.push (idle : state.Idle) (tenant : Tenant) (record : Bytes) (score : Double) :
    (state.push tenant record score).Idle := by
  intro other count registered
  rw [inFlight_push] at registered
  split at registered
  · rw [Option.some.injEq] at registered
    rw [← registered]
    cases held : state.inFlight tenant with
    | none => rfl
    | some count => exact idle tenant count held
  · exact idle other count registered

theorem Readable.push (readable : state.Readable) (tenant : Tenant) {record : Bytes} (score : Double)
    {task : Task} (decoded : Task.decode record = .ok task) :
    (state.push tenant record score).Readable := by
  intro other bytes present
  rw [pendingOf_push] at present
  split at present
  · rw [ScoredSet.score?_insert] at present
    split at present
    · rename_i same
      exact ⟨task, same ▸ decoded⟩
    · exact readable tenant bytes present
  · exact readable other bytes present

/-- What is left of a backlog when each tenant has been served so often. A tenant that waits is counted
what it has been served, and that is the level or one more. -/
structure Leveled (start state : QueueState) (served : Tenant → Nat) (level : Nat) : Prop where
  sound : state.Sound
  readable : state.Readable
  left : ∀ tenant, (state.pendingOf tenant).size + served tenant = (start.pendingOf tenant).size
  counted : ∀ tenant, state.Waits tenant → state.inFlight tenant = some (served tenant : Int)
  least : ∀ tenant, state.Waits tenant → level ≤ served tenant
  most : ∀ tenant, served tenant ≤ level + 1

theorem leveled_start (sound : start.Sound) (readable : start.Readable) (idle : start.Idle) :
    Leveled start start (fun _ => 0) 0 where
  sound := sound
  readable := readable
  left _ := rfl
  counted tenant waits := by
    obtain ⟨count, registered⟩ := Option.isSome_iff_exists.mp (sound.registered tenant waits)
    rw [registered, idle tenant count registered]
    rfl
  least _ _ := Nat.le_refl 0
  most _ := Nat.zero_le 1

/-- A tenant has got all of its backlog, or as many tasks as the level allows. -/
theorem Leveled.served_eq (leveled : Leveled start state served level) (tenant : Tenant) :
    served tenant = min (start.pendingOf tenant).size level ∨
      served tenant = min (start.pendingOf tenant).size (level + 1) := by
  have left := leveled.left tenant
  have most := leveled.most tenant
  by_cases waits : state.Waits tenant
  · have least := leveled.least tenant waits
    omega
  · have nothing := (size_eq_zero_iff state tenant).mpr waits
    omega

theorem Leveled.close (leveled : Leveled start state served level) {first second : Tenant}
    (firstWaits : state.Waits first) (secondWaits : state.Waits second) :
    ∃ firstCount secondCount, state.inFlight first = some firstCount ∧
      state.inFlight second = some secondCount ∧ firstCount ≤ secondCount + 1 ∧
      secondCount ≤ firstCount + 1 := by
  have firstLeast := leveled.least first firstWaits
  have firstMost := leveled.most first
  have secondLeast := leveled.least second secondWaits
  have secondMost := leveled.most second
  refine ⟨_, _, leveled.counted first firstWaits, leveled.counted second secondWaits, ?_, ?_⟩
  · omega
  · omega

theorem Serves.size (serves : state.Serves next tenant record count (count + 1)) (sound : state.Sound)
    (other : Tenant) :
    (next.pendingOf other).size + (if tenant = other then 1 else 0) = (state.pendingOf other).size := by
  by_cases own : tenant = other
  · subst own
    obtain ⟨score, first⟩ := serves.first
    rw [serves.taken, if_pos rfl]
    exact ScoredSet.size_erase _ record score (sound.pendingInStep tenant) first.1
  · rw [serves.kept other (Ne.symm own), if_neg own, Nat.add_zero]

theorem Serves.pending (serves : state.Serves next tenant record count (count + 1)) {other : Tenant}
    {bytes : Bytes} (present : ((next.pendingOf other).score? bytes).isSome) :
    ((state.pendingOf other).score? bytes).isSome := by
  by_cases own : other = tenant
  · rw [own, serves.taken, ScoredSet.score?_erase] at present
    rw [own]
    split at present
    · contradiction
    · exact present
  · rwa [serves.kept other own] at present

/-- Who is served has been served no more often than any other that waits. -/
theorem Leveled.served_le (leveled : Leveled start state served level)
    (serves : state.Serves next tenant record count (count + 1)) {other : Tenant}
    (waits : state.Waits other) : served tenant ≤ served other := by
  obtain ⟨otherCount, registered, order⟩ := serves.least other waits
  have fewer : count ≤ otherCount := ScoredSet.score_le_of_precedence order
  have own := leveled.counted tenant serves.waits
  rw [serves.registered, Option.some.injEq] at own
  rw [leveled.counted other waits, Option.some.injEq] at registered
  omega

/-- A serving keeps the level, or raises it when it goes to a tenant that is above it already. -/
theorem Leveled.serve (leveled : Leveled start state served level)
    (serves : state.Serves next tenant record count (count + 1)) (sound : next.Sound) :
    ∃ raised, Leveled start next (fun other => served other + if tenant = other then 1 else 0)
      raised := by
  have waited (other : Tenant) (waits : next.Waits other) : state.Waits other := by
    obtain ⟨bytes, present⟩ := waits
    exact ⟨bytes, serves.pending present⟩
  have left (other : Tenant) : (next.pendingOf other).size +
      (served other + if tenant = other then 1 else 0) = (start.pendingOf other).size := by
    have taken := serves.size leveled.sound other
    have before := leveled.left other
    omega
  have counted (other : Tenant) (waits : next.Waits other) :
      next.inFlight other = some ((served other + if tenant = other then 1 else 0 : Nat) : Int) := by
    have before := leveled.counted other (waited other waits)
    by_cases own : tenant = other
    · subst own
      rw [serves.registered, Option.some.injEq] at before
      rw [serves.counted, before, if_pos rfl]
      rfl
    · have stays : ¬(¬state.Waits other ∧ state.Before other tenant) := fun passed =>
        passed.1 (waited other waits)
      rw [serves.unmoved other (Ne.symm own) stays, before, if_neg own, Nat.add_zero]
  have readable : next.Readable := fun other bytes present =>
    leveled.readable other bytes (serves.pending present)
  have own := leveled.least tenant serves.waits
  have bound := leveled.most tenant
  by_cases low : served tenant = level
  · refine ⟨level, sound, readable, left, counted, ?_, ?_⟩
    · intro other waits
      have before := leveled.least other (waited other waits)
      omega
    · intro other
      have before := leveled.most other
      by_cases same : tenant = other
      · subst same
        simp only [if_true]
        omega
      · simp only [same, if_false]
        omega
  · -- All that wait have been served as often as this one, so nobody is left at the old level.
    refine ⟨level + 1, sound, readable, left, counted, ?_, ?_⟩
    · intro other waits
      have before := leveled.served_le serves (waited other waits)
      omega
    · intro other
      have before := leveled.most other
      split
      · omega
      · omega

end QueueState

namespace Engine
open Program

theorem servings_of_no_pop {queue : String} (store : MemoryStore) (calls : List Call)
    (others : ∀ call ∈ calls, call ≠ .pop queue) : servings queue (store.eventsFrom calls) = [] := by
  induction calls generalizing store with
  | nil => rfl
  | cons call rest ih =>
    obtain ⟨differs, further⟩ := List.forall_mem_cons.mp others
    rw [MemoryStore.eventsFrom, servings, List.filterMap_cons_none]
    · exact ih _ further
    · cases call with
      | pop place =>
        have elsewhere : place ≠ queue := fun same => differs (congrArg Call.pop same)
        generalize (store.perform (.pop place)).1 = reply
        cases reply with
        | error failure => rfl
        | ok outcome =>
          cases outcome with
          | popped tenant record => exact if_neg elsewhere
          | _ => rfl
      | _ => rfl

theorem servings_next (queue : String) (store : MemoryStore) :
    servings queue (store.eventsFrom ((next queue).calls store)) =
      match (popUntil MemoryStore.backend queue store).1 with
      | .ok (some found) => [found]
      | _ => [] := by
  obtain ⟨after, taken⟩ := popUntil_pops queue store
  have silent (tenant : Tenant) (record : Bytes) :
      (do let task ← readPopped queue tenant record; return some task).Makes
        fun call => call ≠ Call.pop queue :=
    makes_bind _ _ (makes_readPopped queue tenant record (by simp)) fun _ => trivial
  rw [next, calls, MemoryStore.eventsFrom_append, servings_append, taken, ← after]
  generalize popUntil MemoryStore.backend queue store = served
  obtain ⟨outcome, drained, last⟩ := served
  cases outcome with
  | failed failure => rfl
  | crashed crash => rfl
  | ok found =>
    cases found with
    | none => rfl
    | some pair =>
      dsimp only
      rw [servings_of_no_pop last _ ((silent pair.1 pair.2).calls_allowed last), List.append_nil]

def drained (engine : Engine) (queue : String) (store : MemoryStore) (asks : Nat) :
    List (Tenant × Bytes) :=
  servings queue (engine.events store (List.replicate asks (.next queue)))

def drain (engine : Engine) (queue : String) (store : MemoryStore) (asks : Nat) : MemoryStore :=
  (List.replicate asks (.next queue)).foldl engine.perform store

theorem drained_succ (engine : Engine) (queue : String) (store : MemoryStore) (asks : Nat) :
    engine.drained queue store (asks + 1) =
      servings queue (store.eventsFrom ((next queue).calls store)) ++
        engine.drained queue ((next queue).leaves store) asks := by
  rw [drained, List.replicate_succ, events_cons, servings_append]
  rfl

theorem next_readable (store : MemoryStore) (queue : String) (sound : store.Sound)
    (readable : (store.queue queue).Readable) :
    ((next queue).run MemoryStore.backend store).1 = .ok none ∧
        servings queue (store.eventsFrom ((next queue).calls store)) = [] ∧
        (∀ tenant, ¬(store.queue queue).Waits tenant) ∧
        (store.queue queue).Clears (((next queue).leaves store).queue queue) ∨
      ∃ tenant record task count,
        ((next queue).run MemoryStore.backend store).1 = .ok (some task) ∧
        servings queue (store.eventsFrom ((next queue).calls store)) = [(tenant, record)] ∧
        Task.decode record = .ok task ∧
        (store.queue queue).Serves (((next queue).leaves store).queue queue) tenant record count
          (count + 1) := by
  obtain ⟨outcome, notices, last, _, ran, -, -, -, -, selected⟩ := next_selects store queue sound
  have leaves : (next queue).leaves store = last := by rw [Program.leaves, ran]
  rw [leaves, ran, servings_next]
  obtain ⟨found, rfl, nobody, clears⟩ | ⟨tenant, record, count, found, ended⟩ := selected
  · exact Or.inl ⟨rfl, by rw [found], nobody, clears⟩
  · obtain ⟨task, decoded, rfl, serves⟩ | ⟨unreadable, -, serves⟩ := ended
    · exact Or.inr ⟨tenant, record, task, count, rfl, by rw [found], decoded, serves⟩
    · obtain ⟨score, first⟩ := serves.first
      obtain ⟨task, decoded⟩ := readable tenant record (Option.isSome_of_eq_some first.1)
      rw [decoded] at unreadable
      contradiction

theorem drain_succ (engine : Engine) (queue : String) (store : MemoryStore) (asks : Nat) :
    engine.drain queue store (asks + 1) = engine.drain queue ((next queue).leaves store) asks := rfl

theorem answers_succ (queue : String) (asks : Nat) (store : MemoryStore) :
    answers queue (asks + 1) store =
      ((next queue).run MemoryStore.backend store).1 :: answers queue asks ((next queue).leaves store) :=
  rfl

/-- Each ask keeps the tenants level. -/
theorem drain_leveled (engine : Engine) (queue : String) {start : QueueState} (asks : Nat)
    (store : MemoryStore) (sound : store.Sound) {served : Tenant → Nat} {level : Nat}
    (leveled : start.Leveled (store.queue queue) served level) :
    ∃ raised, start.Leveled ((engine.drain queue store asks).queue queue)
      (fun tenant => served tenant + ((engine.drained queue store asks).map Prod.fst).count tenant)
      raised := by
  induction asks generalizing store served level with
  | zero => exact ⟨level, leveled⟩
  | succ asks ih =>
    have lastSound : ((next queue).leaves store).Sound := next_sound store queue sound
    obtain ⟨-, taken, nobody, clears⟩ | ⟨tenant, record, task, count, -, taken, -, serves⟩ :=
      next_readable store queue sound leveled.readable
    · have nothing (tenant : Tenant) : ¬(((next queue).leaves store).queue queue).Waits tenant := by
        rw [QueueState.Waits, clears.pending tenant]
        exact nobody tenant
      have same : start.Leveled (((next queue).leaves store).queue queue) served level := {
        sound := lastSound queue
        readable := fun tenant record present => absurd ⟨record, present⟩ (nothing tenant)
        left := fun tenant => by
          rw [clears.pending tenant]
          exact leveled.left tenant
        counted := fun tenant waits => absurd waits (nothing tenant)
        least := fun tenant waits => absurd waits (nothing tenant)
        most := leveled.most }
      rw [drained_succ, taken]
      exact ih _ lastSound same
    · obtain ⟨raised, next⟩ := leveled.serve serves (lastSound queue)
      obtain ⟨further, last⟩ := ih _ lastSound next
      refine ⟨further, ?_⟩
      rw [drained_succ, drain_succ, taken]
      simp only [List.singleton_append, List.map_cons, List.count_cons, beq_iff_eq]
      simpa only [Nat.add_assoc, Nat.add_comm, Nat.add_left_comm] using last

theorem answers_drained (engine : Engine) (queue : String) (asks : Nat) (store : MemoryStore)
    (sound : store.Sound) (readable : (store.queue queue).Readable) :
    ∃ tasks : List Task, tasks.length = min asks (store.queue queue).pendingTotal ∧
      (engine.drained queue store asks).map (fun serving => Task.decode serving.2) = tasks.map .ok ∧
      answers queue asks store = tasks.map (fun task => .ok (some task)) ++
        List.replicate (asks - tasks.length) (.ok none) ∧
      ((engine.drain queue store asks).queue queue).pendingTotal + tasks.length =
        (store.queue queue).pendingTotal := by
  induction asks generalizing store with
  | zero => exact ⟨[], (Nat.zero_min _).symm, rfl, rfl, rfl⟩
  | succ asks ih =>
    have lastSound : ((next queue).leaves store).Sound := next_sound store queue sound
    rw [drained_succ, drain_succ, answers_succ]
    obtain ⟨ended, taken, nobody, clears⟩ |
        ⟨tenant, record, task, count, ended, taken, decoded, serves⟩ :=
      next_readable store queue sound readable
    · have before : (store.queue queue).pendingTotal = 0 :=
        (QueueState.pendingTotal_eq_zero_iff _).mpr nobody
      have after : (((next queue).leaves store).queue queue).pendingTotal = 0 := by
        refine (QueueState.pendingTotal_eq_zero_iff _).mpr fun tenant => ?_
        rw [QueueState.Waits, clears.pending tenant]
        exact nobody tenant
      have still : (((next queue).leaves store).queue queue).Readable := by
        intro tenant record present
        rw [clears.pending tenant] at present
        exact readable tenant record present
      obtain ⟨tasks, length, read, answered, left⟩ := ih _ lastSound still
      rw [after, Nat.min_zero] at length
      obtain rfl := List.length_eq_zero_iff.mp length
      refine ⟨[], by rw [before, Nat.min_zero, List.length_nil], ?_, ?_, ?_⟩
      · rw [taken, List.nil_append]
        exact read
      · rw [ended, answered]
        rfl
      · rw [left, after, before]
    · have still : (((next queue).leaves store).queue queue).Readable := fun other bytes present =>
        readable other bytes (serves.pending present)
      have fewer := serves.pendingTotal (sound queue)
      obtain ⟨tasks, length, read, answered, left⟩ := ih _ lastSound still
      refine ⟨task :: tasks, ?_, ?_, ?_, ?_⟩
      · rw [List.length_cons, length]
        omega
      · rw [taken, List.singleton_append, List.map_cons, List.map_cons, decoded, read]
      · rw [ended, answered, List.length_cons, Nat.add_sub_add_right, List.map_cons, List.cons_append]
      · rw [List.length_cons]
        omega

/-- From any state in which nothing is in flight and all can be read, so many asks have served each
tenant as often as a level allows or once more, unless its backlog was smaller. Tenants that still wait
are counted the same or one apart. Each ask is answered with the task it takes, and as many asks as
tasks are pending serve them all. -/
theorem drained_evenly (engine : Engine) (calls : List Call) (queue : String)
    (idle : ((MemoryStore.after calls).queue queue).Idle)
    (readable : ((MemoryStore.after calls).queue queue).Readable) (asks : Nat) :
    let store := MemoryStore.after calls
    let backlog (tenant : Tenant) := ((store.queue queue).pendingOf tenant).size
    let served (tenant : Tenant) := ((engine.drained queue store asks).map Prod.fst).count tenant
    let last := (engine.drain queue store asks).queue queue
    (∃ level, ∀ tenant, served tenant = min (backlog tenant) level ∨
      served tenant = min (backlog tenant) (level + 1)) ∧
    (∀ first second, last.Waits first → last.Waits second →
      ∃ firstCount secondCount, last.inFlight first = some firstCount ∧
        last.inFlight second = some secondCount ∧ firstCount ≤ secondCount + 1 ∧
        secondCount ≤ firstCount + 1) ∧
    (∃ tasks : List Task,
      (engine.drained queue store asks).map (fun serving => Task.decode serving.2) = tasks.map .ok ∧
      answers queue asks store = tasks.map (fun task => .ok (some task)) ++
        List.replicate (asks - (store.queue queue).pendingTotal) (.ok none)) ∧
    (asks = (store.queue queue).pendingTotal →
      ∀ tenant, served tenant = backlog tenant ∧ ¬last.Waits tenant) := by
  intro store backlog served last
  have sound : store.Sound := MemoryStore.after_sound calls
  obtain ⟨level, leveled⟩ := engine.drain_leveled queue asks store sound
    (QueueState.leveled_start (sound queue) readable idle)
  simp only [Nat.zero_add] at leveled
  obtain ⟨tasks, length, read, answered, left⟩ := engine.answers_drained queue asks store sound readable
  refine ⟨⟨level, leveled.served_eq⟩, fun first second => leveled.close, ⟨tasks, read, ?_⟩, ?_⟩
  · have rest : asks - tasks.length = asks - (store.queue queue).pendingTotal := by omega
    rw [answered, rest]
  · intro whole tenant
    have spent : last.pendingTotal + tasks.length = (store.queue queue).pendingTotal := left
    have nothing : last.pendingTotal = 0 := by omega
    have gone := (QueueState.pendingTotal_eq_zero_iff last).mp nothing tenant
    have size := (QueueState.size_eq_zero_iff last tenant).mpr gone
    have total : (last.pendingOf tenant).size + served tenant = backlog tenant := leveled.left tenant
    rw [size, Nat.zero_add] at total
    exact ⟨total, gone⟩

def errand (tenant : Tenant) (letter : UInt8) : Task := ⟨"t", tenant, [letter], ⟨1700000000, 0⟩, 0⟩

def uneven : List Call :=
  [.push "q" ⟨9⟩ (errand ⟨9⟩ 0x61).encode 0, .push "q" ⟨9⟩ (errand ⟨9⟩ 0x62).encode 0,
    .push "q" ⟨9⟩ (errand ⟨9⟩ 0x63).encode 0, .push "q" ⟨10⟩ (errand ⟨10⟩ 0x64).encode 0]

theorem drained_evenly_uneven :
    ((MemoryStore.after uneven).queue "q").Idle ∧ ((MemoryStore.after uneven).queue "q").Readable ∧
      ((standard.drained "q" (MemoryStore.after uneven) 4).map Prod.fst).count ⟨9⟩ = 3 ∧
      ((standard.drained "q" (MemoryStore.after uneven) 4).map Prod.fst).count ⟨10⟩ = 1 := by
  have empty : QueueState.empty.Idle ∧ QueueState.empty.Readable := ⟨nofun, nofun⟩
  have idle : ((MemoryStore.after uneven).queue "q").Idle :=
    (((empty.1.push _ _ _).push _ _ _).push _ _ _).push _ _ _
  have readable : ((MemoryStore.after uneven).queue "q").Readable :=
    (((empty.2.push ⟨9⟩ _ rfl).push ⟨9⟩ _ rfl).push ⟨9⟩ _ rfl).push ⟨10⟩ _ rfl
  have total : ((MemoryStore.after uneven).queue "q").pendingTotal = 4 := by decide +kernel
  have whole := (drained_evenly standard uneven "q" idle readable 4).2.2.2 total.symm
  refine ⟨idle, readable, (whole ⟨9⟩).1.trans ?_, (whole ⟨10⟩).1.trans ?_⟩
  · decide +kernel
  · decide +kernel

end Engine
end TenantQueue
