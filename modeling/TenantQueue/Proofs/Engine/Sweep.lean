import Mathlib.Algebra.BigOperators.Group.List.Basic
import TenantQueue.Engine.Sweep
import TenantQueue.Proofs.Engine.Clearance
import TenantQueue.Proofs.Partition

/-! A sweep over several queues of a store that may refuse calls. As long as no queue breaks it off
with a crash, it leaves each queue as the sweep of this queue alone leaves it, in any order. -/
namespace TenantQueue

def Outcome.attempted {α : Type} : Outcome α → Outcome (Except Failure α)
  | .ok value => .ok (.ok value)
  | .failed failure => .ok (.error failure)
  | .crashed crash => .crashed crash

def Outcome.counted : Outcome Nat → Nat
  | .ok count => count
  | .failed _ => 0
  | .crashed _ => 0

def Outcome.logged : Outcome Nat → Outcome Nat
  | .ok count => .ok count
  | .failed _ => .ok 0
  | .crashed crash => .crashed crash

theorem Program.run_attempt {α σ : Type} (backend : Backend σ) (program : Program α) (state : σ) :
    program.attempt.run backend state =
      ((program.run backend state).1.attempted, (program.run backend state).2) := by
  induction program generalizing state with
  | done value => rfl
  | failed failure => rfl
  | crashed crash => rfl
  | note notice rest ih =>
    simp only [Program.attempt, run]
    rw [ih]
  | call request after ih =>
    simp only [Program.attempt, run]
    split
    · exact ih _ _
    · exact ih _ _
    · rfl
  | serve queue after ih =>
    simp only [Program.attempt, run]
    split
    · rw [ih]
    · rw [ih]
    · rfl

theorem Program.Ends.attempt {α σ : Type} {backend : Backend σ} {program : Program α}
    {state last : σ} {outcome : Outcome α} (ends : program.Ends backend state outcome last) :
    program.attempt.Ends backend state outcome.attempted last := by
  obtain ⟨notices, ran⟩ := ends
  exact ⟨notices, by rw [run_attempt, ran]⟩

theorem Outcome.plus_plus (first second : Nat) (outcome : Outcome Nat) :
    (outcome.plus second).plus first = outcome.plus (first + second) := by
  cases outcome with
  | ok count => exact congrArg Outcome.ok (Nat.add_assoc first second count).symm
  | failed failure => rfl
  | crashed crash => rfl

namespace Engine
open Program

section
variable {α σ π : Type} {backend : Backend σ} {part : String → σ → π} {work : α → Program Nat}
  {name : α → String}

/-- Work on members with a queue for each does for each what it does alone, and then goes on with
the members that follow. -/
theorem total_apart (partitions : backend.Partitions part)
    (makes : ∀ member, (work member).Makes fun call => call.queue = name member)
    (members : List α) (start state : σ) (distinct : (members.map name).Nodup)
    (alike : ∀ member ∈ members, part (name member) state = part (name member) start)
    (calm : ∀ member ∈ members, ∃ count, (work member).outcomeOn backend start = .ok count) :
    ∃ middle,
      (∀ rest outcome last, (total work rest).Ends backend middle outcome last →
        (total work (members ++ rest)).Ends backend state
          (outcome.plus
            (members.map fun member => ((work member).outcomeOn backend start).counted).sum) last) ∧
      (∀ member ∈ members,
        part (name member) middle = part (name member) ((work member).lastOn backend start)) ∧
      ∀ other ∉ members.map name, part other middle = part other state := by
  induction members generalizing state with
  | nil =>
    refine ⟨state, ?_, fun _ listed => absurd listed List.not_mem_nil, fun _ _ => rfl⟩
    intro rest outcome last ended
    have same : outcome.plus 0 = outcome := by
      cases outcome with
      | ok count => exact congrArg Outcome.ok (Nat.zero_add count)
      | failed failure => rfl
      | crashed crash => rfl
    rw [List.map_nil, List.sum_nil, same]
    exact ended
  | cons member members ih =>
    obtain ⟨fresh, tail⟩ := List.nodup_cons.mp distinct
    obtain ⟨here, alikeRest⟩ := List.forall_mem_cons.mp alike
    obtain ⟨⟨count, endsHere⟩, calmRest⟩ := List.forall_mem_cons.mp calm
    obtain ⟨same, alone⟩ := run_alike partitions state start (makes member) here
    have apart {other : String} (differ : name member ≠ other) :
        part other ((work member).lastOn backend state) = part other state :=
      run_apart partitions state (makes member) differ
    have differs (other : α) (listed : other ∈ members) : name member ≠ name other := by
      intro equal
      exact fresh (equal ▸ List.mem_map_of_mem listed)
    obtain ⟨middle, goesOn, restAlone, restApart⟩ := ih ((work member).lastOn backend state) tail
      (fun other listed => (apart (differs other listed)).trans (alikeRest other listed)) calmRest
    refine ⟨middle, ?_, ?_, ?_⟩
    · intro rest outcome last ended
      have first : (work member).Ends backend state (.ok count) _ :=
        ends_iff.mpr ⟨same.trans endsHere, rfl⟩
      have both := ends_total_cons first (goesOn rest outcome last ended)
      rw [Outcome.plus_plus] at both
      rw [List.map_cons, List.sum_cons, endsHere]
      exact both
    · intro other listed
      obtain rfl | listed := List.mem_cons.mp listed
      · rw [restApart _ fresh, alone]
      · exact restAlone other listed
    · intro other unlisted
      rw [List.map_cons, List.mem_cons, not_or] at unlisted
      rw [restApart other unlisted.2, apart (Ne.symm unlisted.1)]

/-- A member that crashes alone breaks off the work on it and on those that follow. -/
theorem total_broken (partitions : backend.Partitions part)
    (makes : ∀ member, (work member).Makes fun call => call.queue = name member)
    (before after : List α) (member : α) (start : σ)
    (distinct : ((before ++ member :: after).map name).Nodup)
    (calm : ∀ earlier ∈ before, ∃ count, (work earlier).outcomeOn backend start = .ok count)
    (crash : Crash) (crashes : (work member).outcomeOn backend start = .crashed crash) :
    ∃ last, (total work (before ++ member :: after)).Ends backend start (.crashed crash) last ∧
      (∀ reached ∈ before ++ [member],
        part (name reached) last = part (name reached) ((work reached).lastOn backend start)) ∧
      ∀ other ∉ (before ++ [member]).map name, part other last = part other start := by
  rw [List.map_append, List.map_cons] at distinct
  obtain ⟨distinctBefore, -, disjoint⟩ := List.nodup_append.mp distinct
  have fresh : name member ∉ before.map name := by
    intro listed
    exact disjoint _ listed _ List.mem_cons_self rfl
  obtain ⟨middle, goesOn, alone, apart⟩ := total_apart partitions makes before start start
    distinctBefore (fun _ _ => rfl) calm
  obtain ⟨same, left⟩ := run_alike partitions middle start (makes member) (apart _ fresh)
  have ended : (work member).Ends backend middle (.crashed crash) _ :=
    ends_iff.mpr ⟨same.trans crashes, rfl⟩
  have broken := goesOn (member :: after) _ _ (ends_total_stopped ended fun _ => nofun)
  refine ⟨_, broken, ?_, ?_⟩
  · intro reached listed
    obtain listed | rfl := List.mem_append.mp listed |>.imp_right List.mem_singleton.mp
    · have differ : name member ≠ name reached := by
        intro equal
        exact fresh (equal ▸ List.mem_map_of_mem listed)
      rw [run_apart partitions middle (makes member) differ, alone reached listed]
    · exact left
  · intro other unlisted
    rw [List.map_append, List.mem_append, not_or] at unlisted
    have differ : name member ≠ other := by
      rintro rfl
      exact unlisted.2 List.mem_cons_self
    rw [run_apart partitions middle (makes member) differ, apart other unlisted.1]

end

private theorem calm_total {α : Type} {work : α → Program Nat} (members : List α)
    (each : ∀ member, (work member).Calm) : (total work members).Calm := by
  induction members with
  | nil => trivial
  | cons first rest ih =>
    exact calm_bind _ _ (each first) fun _ => calm_bind _ _ ih fun _ => trivial

private theorem calm_requeueEntry (engine : Engine) (queue : String) (tenant : Tenant) (now : Instant)
    (fingerprint : Fingerprint)
    (due : ∀ errors, redeliveryTime? now (engine.config.backoff errors) ≠ none) :
    (engine.requeueEntry queue tenant now fingerprint).Calm := by
  have drops : (dropEntry queue tenant fingerprint).Calm :=
    calm_bind _ _ (calm_perform _) fun _ => calm_perform _
  have stored : (storedTask queue tenant fingerprint).Calm := by
    refine calm_bind _ _ (calm_perform _) fun record => ?_
    cases record with
    | none => exact calm_bind _ _ trivial fun _ => trivial
    | some record =>
      dsimp only
      split
      · trivial
      · exact calm_bind _ _ trivial fun _ => trivial
  refine calm_bind _ _ stored fun task => ?_
  cases task with
  | none => exact calm_bind _ _ drops fun _ => trivial
  | some task =>
    have requeues : (engine.requeue queue tenant task now).Calm := by
      unfold requeue
      dsimp only
      split
      · rename_i beyond
        exact absurd beyond (due _)
      · refine calm_bind _ _ ?_ fun _ => calm_bind _ _ (calm_perform _) fun _ => trivial
        exact calm_bind _ _ (calm_ofExcept _) fun _ => calm_bind _ _ (calm_perform _) fun _ => trivial
    exact calm_bind _ _ requeues fun _ => calm_bind _ _ drops fun _ => trivial

theorem requeueExpired_calm (engine : Engine) (queue : String) (now : Instant)
    (due : ∀ errors, redeliveryTime? now (engine.config.backoff errors) ≠ none) :
    (engine.requeueExpired queue now).Calm := by
  refine calm_bind _ _ (calm_perform _) fun registered => calm_total _ fun entry => ?_
  refine calm_bind _ _ (calm_perform _) fun expired => calm_total _ fun fingerprint => ?_
  exact calm_requeueEntry engine queue entry.1 now fingerprint due

def turn (engine : Engine) (measured : Bool) (queue : String × Instant) : Program Nat := do
  match ← (engine.sweepQueue measured queue.1 queue.2).attempt with
  | .ok count => return count
  | .error failure =>
    .log .error ("Sweep of " ++ queue.1 ++ " failed: " ++ failure.message)
    return 0

theorem sweep_eq (engine : Engine) (measured : Bool) (queues : List (String × Instant)) :
    engine.sweep measured queues = total (engine.turn measured) queues := rfl

private theorem makes_sweepQueue (engine : Engine) (measured : Bool) (queue : String) (now : Instant) :
    (engine.sweepQueue measured queue now).Makes fun call => call.queue = queue := by
  have requeues : (engine.requeueExpired queue now).Makes fun call => call.queue = queue :=
    makes_requeueExpired engine queue now rfl (fun _ => rfl) (fun _ => rfl) (fun _ _ _ => rfl)
      (fun _ => rfl) (fun _ _ => rfl) (fun _ => rfl)
  refine makes_bind _ _ requeues fun count => ?_
  cases measured with
  | false => trivial
  | true =>
    have measures : (size queue).Makes fun call => call.queue = queue := makes_perform _ rfl
    exact makes_bind _ _ trivial fun _ => makes_bind _ _ measures fun _ =>
      makes_bind _ _ trivial fun _ => trivial

private theorem makes_turn (engine : Engine) (measured : Bool) (queue : String × Instant) :
    (engine.turn measured queue).Makes fun call => call.queue = queue.1 := by
  refine makes_bind _ _ (makes_attempt _ (makes_sweepQueue engine measured queue.1 queue.2))
    fun result => ?_
  cases result with
  | ok count => trivial
  | error failure => exact makes_bind _ _ trivial fun _ => trivial

private theorem ends_turn {σ : Type} {backend : Backend σ} (engine : Engine) (measured : Bool)
    (queue : String × Instant) {start last : σ} {outcome : Outcome Nat}
    (ended : (engine.sweepQueue measured queue.1 queue.2).Ends backend start outcome last) :
    (engine.turn measured queue).Ends backend start outcome.logged last := by
  have attempted := ended.attempt
  cases outcome with
  | ok count => exact attempted.bind_ok (ends_done count)
  | failed failure => exact attempted.bind_ok ((ends_note _ (ends_done ())).bind_ok (ends_done 0))
  | crashed crash => exact attempted.bind_crashed

section
variable (engine : Engine) (measured : Bool) (refusals : Refusals)

private theorem ends_size (state : Faltering MemoryStore) (queue : String) :
    let backend := Faltering.backend MemoryStore.backend refusals
    ∃ outcome last, (size queue).Ends backend state outcome last ∧ last.store = state.store ∧
      ∀ crash, outcome ≠ .crashed crash := by
  intro backend
  refine ⟨_, _, ends_perform (.size queue) rfl, ?_, fun crash =>
    Faltering.backend_steady MemoryStore.backend_steady refusals (.size queue) state crash⟩
  change (Faltering.perform MemoryStore.backend refusals (.size queue) state).2.store = state.store
  unfold Faltering.perform
  split <;> rfl

private theorem ends_sweepQueue (start : Faltering MemoryStore) (queue : String) (now : Instant) :
    let backend := Faltering.backend MemoryStore.backend refusals
    let alone := engine.requeueExpired queue now
    ∃ outcome last, (engine.sweepQueue measured queue now).Ends backend start outcome last ∧
      last.store = (alone.lastOn backend start).store ∧
      (∀ count, outcome = .ok count → alone.outcomeOn backend start = .ok count) ∧
      ∀ crash, outcome = .crashed crash ↔ alone.outcomeOn backend start = .crashed crash := by
  intro backend alone
  have ended := ends_on backend alone start
  revert ended
  generalize alone.outcomeOn backend start = outcome
  generalize alone.lastOn backend start = middle
  intro ended
  cases outcome with
  | failed failure => exact ⟨_, _, ended.bind_failed, rfl, fun _ => nofun, fun _ => Iff.rfl⟩
  | crashed crash => exact ⟨_, _, ended.bind_crashed, rfl, fun _ => nofun, fun _ => Iff.rfl⟩
  | ok count =>
    cases measured with
    | false => exact ⟨_, _, ended.bind_ok (ends_done count), rfl, fun _ same => same, fun _ => Iff.rfl⟩
    | true =>
      obtain ⟨depth, last, measures, unchanged, lasts⟩ := ends_size refusals middle queue
      cases depth with
      | ok depth =>
        have rest : (size queue >>= fun depth => do
            observe (.depth queue depth)
            return count).Ends backend middle (.ok count) last :=
          measures.bind_ok (ends_note _ (ends_done count))
        exact ⟨_, _, ended.bind_ok (ends_note _ rest), unchanged, fun _ same => same,
          fun _ => Iff.rfl⟩
      | failed failure =>
        exact ⟨_, _, ended.bind_ok (ends_note _ measures.bind_failed), unchanged, fun _ => nofun,
          fun _ => ⟨nofun, nofun⟩⟩
      | crashed crash => exact absurd rfl (lasts crash)

/-- The turn of a queue leaves it as the delivery of its expired entries alone leaves it, and crashes
with it. -/
private theorem turn_on (start : Faltering MemoryStore) (queue : String × Instant) :
    let backend := Faltering.backend MemoryStore.backend refusals
    let alone := engine.requeueExpired queue.1 queue.2
    let swept := engine.sweepQueue measured queue.1 queue.2
    ((engine.turn measured queue).lastOn backend start).store = (alone.lastOn backend start).store ∧
      ((engine.turn measured queue).outcomeOn backend start).counted =
        (swept.outcomeOn backend start).counted ∧
      ((∀ crash, alone.outcomeOn backend start ≠ .crashed crash) →
        ∃ count, (engine.turn measured queue).outcomeOn backend start = .ok count) ∧
      ∀ crash, alone.outcomeOn backend start = .crashed crash →
        (engine.turn measured queue).outcomeOn backend start = .crashed crash := by
  intro backend alone swept
  obtain ⟨outcome, last, ended, store, -, crashes⟩ :=
    ends_sweepQueue engine measured refusals start queue.1 queue.2
  obtain ⟨sweptOutcome, -⟩ := ends_iff.mp ended
  obtain ⟨turnOutcome, turnLast⟩ := ends_iff.mp (ends_turn engine measured queue ended)
  rw [turnLast, turnOutcome, sweptOutcome]
  refine ⟨store, ?_, ?_, ?_⟩
  · cases outcome <;> rfl
  · intro calm
    cases outcome with
    | ok count => exact ⟨count, rfl⟩
    | failed failure => exact ⟨0, rfl⟩
    | crashed crash => exact absurd ((crashes crash).mp rfl) (calm crash)
  · intro crash crashed
    rw [(crashes crash).mpr crashed]
    rfl

private theorem faltering_partitions :
    (Faltering.backend MemoryStore.backend refusals).Partitions fun queue state =>
      (state.store.queue queue, state.madeAbout queue) :=
  Faltering.backend_partitions MemoryStore.backend_partitions refusals

private theorem all_or_first {α : Type} (Fine : α → Prop) (members : List α) :
    (∀ member ∈ members, Fine member) ∨
      ∃ before member after, members = before ++ member :: after ∧
        (∀ earlier ∈ before, Fine earlier) ∧ ¬Fine member := by
  induction members with
  | nil => exact Or.inl fun _ listed => absurd listed List.not_mem_nil
  | cons first rest ih =>
    by_cases fine : Fine first
    · obtain all | ⟨before, member, after, split, earlier, breaks⟩ := ih
      · exact Or.inl (List.forall_mem_cons.mpr ⟨fine, all⟩)
      · refine Or.inr ⟨first :: before, member, after, ?_, ?_, breaks⟩
        · rw [split, List.cons_append]
        · exact List.forall_mem_cons.mpr ⟨fine, earlier⟩
    · exact Or.inr ⟨[], first, rest, rfl, fun _ listed => absurd listed List.not_mem_nil, fine⟩

/-- As long as no queue crashes the sweep, each has its turn. -/
private theorem ends_sweep (start : Faltering MemoryStore) (queues : List (String × Instant))
    (distinct : (queues.map Prod.fst).Nodup)
    (calm : ∀ queue ∈ queues, ∀ crash, (engine.requeueExpired queue.1 queue.2).outcomeOn
      (Faltering.backend MemoryStore.backend refusals) start ≠ .crashed crash) :
    let backend := Faltering.backend MemoryStore.backend refusals
    ∃ last, (engine.sweep measured queues).Ends backend start
        (.ok (queues.map fun queue =>
          ((engine.sweepQueue measured queue.1 queue.2).outcomeOn backend start).counted).sum) last ∧
      (∀ queue ∈ queues, last.store.queue queue.1 =
        ((engine.requeueExpired queue.1 queue.2).lastOn backend start).store.queue queue.1) ∧
      ∀ name ∉ queues.map Prod.fst, last.store.queue name = start.store.queue name := by
  intro backend
  have turns (queue : String × Instant) (listed : queue ∈ queues) :
      ∃ count, (engine.turn measured queue).outcomeOn backend start = .ok count :=
    (turn_on engine measured refusals start queue).2.2.1 (calm queue listed)
  obtain ⟨last, goesOn, alone, apart⟩ := total_apart (faltering_partitions refusals)
    (makes_turn engine measured) queues start start distinct (fun _ _ => rfl) turns
  have ended := goesOn [] (.ok 0) last (ends_done 0)
  have counts : (queues.map fun queue =>
      ((engine.turn measured queue).outcomeOn backend start).counted) =
      queues.map fun queue =>
        ((engine.sweepQueue measured queue.1 queue.2).outcomeOn backend start).counted :=
    List.map_congr_left fun queue _ => (turn_on engine measured refusals start queue).2.1
  rw [List.append_nil, counts, ← sweep_eq] at ended
  refine ⟨last, ended, ?_, ?_⟩
  · intro queue listed
    rw [← (turn_on engine measured refusals start queue).1]
    exact congrArg Prod.fst (alone queue listed)
  · intro name unlisted
    exact congrArg Prod.fst (apart name unlisted)

/-- The first queue that crashes breaks off the sweep. The queues before it have had their turns, those
after it have not. -/
theorem sweep_broken (start : Faltering MemoryStore) (before after : List (String × Instant))
    (queue : String × Instant) (distinct : ((before ++ queue :: after).map Prod.fst).Nodup)
    (calm : ∀ earlier ∈ before, ∀ crash, (engine.requeueExpired earlier.1 earlier.2).outcomeOn
      (Faltering.backend MemoryStore.backend refusals) start ≠ .crashed crash)
    (crash : Crash) (crashes : (engine.requeueExpired queue.1 queue.2).outcomeOn
      (Faltering.backend MemoryStore.backend refusals) start = .crashed crash) :
    let backend := Faltering.backend MemoryStore.backend refusals
    ∃ last, (engine.sweep measured (before ++ queue :: after)).Ends backend start (.crashed crash)
        last ∧
      (∀ reached ∈ before ++ [queue], last.store.queue reached.1 =
        ((engine.requeueExpired reached.1 reached.2).lastOn backend start).store.queue reached.1) ∧
      ∀ name ∉ (before ++ [queue]).map Prod.fst, last.store.queue name = start.store.queue name := by
  intro backend
  have turns (earlier : String × Instant) (listed : earlier ∈ before) :
      ∃ count, (engine.turn measured earlier).outcomeOn backend start = .ok count :=
    (turn_on engine measured refusals start earlier).2.2.1 (calm earlier listed)
  have breaks := (turn_on engine measured refusals start queue).2.2.2 crash crashes
  obtain ⟨last, ended, alone, apart⟩ := total_broken (faltering_partitions refusals)
    (makes_turn engine measured) before after queue start distinct turns crash breaks
  rw [← sweep_eq] at ended
  refine ⟨last, ended, ?_, ?_⟩
  · intro reached listed
    rw [← (turn_on engine measured refusals start reached).1]
    exact congrArg Prod.fst (alone reached listed)
  · intro name unlisted
    exact congrArg Prod.fst (apart name unlisted)

/-- If no delay leads out of the calendar, nothing breaks off a sweep. -/
theorem sweep_lasts (start : Faltering MemoryStore) (queues : List (String × Instant))
    (distinct : (queues.map Prod.fst).Nodup)
    (due : ∀ queue ∈ queues, ∀ errors,
      redeliveryTime? queue.2 (engine.config.backoff errors) ≠ none) :
    ∃ total, (engine.sweep measured queues).outcomeOn
      (Faltering.backend MemoryStore.backend refusals) start = .ok total := by
  have steady := Faltering.backend_steady MemoryStore.backend_steady refusals
  obtain ⟨last, ended, -⟩ := ends_sweep engine measured refusals start queues distinct
    fun queue listed =>
      (requeueExpired_calm engine queue.1 queue.2 (due queue listed)).run_lasts _ steady start
  exact ⟨_, (ends_iff.mp ended).1⟩

private theorem sweep_breaks (start : Faltering MemoryStore) (queues : List (String × Instant))
    (distinct : (queues.map Prod.fst).Nodup)
    (some : ¬∀ queue ∈ queues, ∀ crash, (engine.requeueExpired queue.1 queue.2).outcomeOn
      (Faltering.backend MemoryStore.backend refusals) start ≠ .crashed crash) :
    ∃ crash last, (engine.sweep measured queues).Ends
        (Faltering.backend MemoryStore.backend refusals) start (.crashed crash) last ∧
      ∀ name ∉ queues.map Prod.fst, last.store.queue name = start.store.queue name := by
  obtain all | ⟨before, queue, after, rfl, calm, crashes⟩ := all_or_first _ queues
  · exact absurd all some
  · obtain ⟨crash, crashes⟩ := not_forall_not.mp crashes
    obtain ⟨last, ended, -, apart⟩ := sweep_broken engine measured refusals start before after queue
      distinct calm crash crashes
    refine ⟨crash, last, ended, ?_⟩
    intro name unlisted
    apply apart name
    intro reached
    apply unlisted
    rw [List.map_append, List.mem_append] at reached ⊢
    exact reached.imp_right fun here => List.mem_cons.mpr (Or.inl (List.mem_singleton.mp here))

private theorem sweep_ends_iff (start : Faltering MemoryStore) (queues : List (String × Instant))
    (distinct : (queues.map Prod.fst).Nodup) :
    let backend := Faltering.backend MemoryStore.backend refusals
    (∃ total, (engine.sweep measured queues).outcomeOn backend start = .ok total) ↔
      ∀ queue ∈ queues, ∀ crash,
        (engine.requeueExpired queue.1 queue.2).outcomeOn backend start ≠ .crashed crash := by
  intro backend
  constructor
  · rintro ⟨total, ended⟩
    by_contra some
    obtain ⟨crash, last, crashed, -⟩ := sweep_breaks engine measured refusals start queues distinct some
    have differ := (ends_iff.mp crashed).1.symm.trans ended
    contradiction
  · intro calm
    obtain ⟨last, ended, -⟩ := ends_sweep engine measured refusals start queues distinct calm
    exact ⟨_, (ends_iff.mp ended).1⟩

/-- The sum of the counts does not depend on the order, and what becomes of a queue depends on the
start only. -/
private theorem sweep_permuted (start : Faltering MemoryStore) {queues order : List (String × Instant)}
    (permuted : order.Perm queues) (distinct : (queues.map Prod.fst).Nodup)
    (calm : ∀ queue ∈ queues, ∀ crash, (engine.requeueExpired queue.1 queue.2).outcomeOn
      (Faltering.backend MemoryStore.backend refusals) start ≠ .crashed crash) :
    let backend := Faltering.backend MemoryStore.backend refusals
    (engine.sweep measured order).outcomeOn backend start =
        (engine.sweep measured queues).outcomeOn backend start ∧
      ∀ name, ((engine.sweep measured order).lastOn backend start).store.queue name =
        ((engine.sweep measured queues).lastOn backend start).store.queue name := by
  intro backend
  have names := permuted.map Prod.fst
  have calmOrder : ∀ queue ∈ order, ∀ crash, (engine.requeueExpired queue.1 queue.2).outcomeOn
      backend start ≠ .crashed crash :=
    fun queue listed => calm queue (permuted.mem_iff.mp listed)
  obtain ⟨last, ended, left, apart⟩ := ends_sweep engine measured refusals start queues distinct calm
  obtain ⟨lastToo, endedToo, leftToo, apartToo⟩ :=
    ends_sweep engine measured refusals start order (names.nodup_iff.mpr distinct) calmOrder
  obtain ⟨counted, lastIs⟩ := ends_iff.mp ended
  obtain ⟨countedToo, lastTooIs⟩ := ends_iff.mp endedToo
  rw [lastIs, lastTooIs]
  constructor
  · rw [counted, countedToo, (permuted.map _).sum_eq]
  · intro name
    by_cases listed : name ∈ queues.map Prod.fst
    · obtain ⟨queue, member, rfl⟩ := List.mem_map.mp listed
      rw [left queue member, leftToo queue (permuted.mem_iff.mpr member)]
    · rw [apart name listed, apartToo name fun also => listed (names.mem_iff.mp also)]

private theorem sweep_apart (start : Faltering MemoryStore) (queues : List (String × Instant))
    (distinct : (queues.map Prod.fst).Nodup) {name : String} (unlisted : name ∉ queues.map Prod.fst) :
    ((engine.sweep measured queues).lastOn (Faltering.backend MemoryStore.backend refusals)
      start).store.queue name = start.store.queue name := by
  by_cases calm : ∀ queue ∈ queues, ∀ crash, (engine.requeueExpired queue.1 queue.2).outcomeOn
      (Faltering.backend MemoryStore.backend refusals) start ≠ .crashed crash
  · obtain ⟨last, ended, -, apart⟩ := ends_sweep engine measured refusals start queues distinct calm
    rw [(ends_iff.mp ended).2]
    exact apart name unlisted
  · obtain ⟨crash, last, ended, apart⟩ := sweep_breaks engine measured refusals start queues distinct calm
    rw [(ends_iff.mp ended).2]
    exact apart name unlisted

/-- A sweep of distinct queues ends well unless one of them crashes it. It then counts what the queues
count alone, leaves each as its own sweep leaves it and all others as they were, in any order. -/
theorem sweep_as_alone (start : Faltering MemoryStore) (queues : List (String × Instant))
    (distinct : (queues.map Prod.fst).Nodup) :
    let backend := Faltering.backend MemoryStore.backend refusals
    let alone (queue : String × Instant) := engine.requeueExpired queue.1 queue.2
    let swept := engine.sweep measured queues
    ((∃ total, swept.outcomeOn backend start = .ok total) ↔
      ∀ queue ∈ queues, ∀ crash, (alone queue).outcomeOn backend start ≠ .crashed crash) ∧
    (∀ total, swept.outcomeOn backend start = .ok total →
      total = (queues.map fun queue =>
        ((engine.sweepQueue measured queue.1 queue.2).outcomeOn backend start).counted).sum ∧
      (∀ queue ∈ queues, (swept.lastOn backend start).store.queue queue.1 =
        ((alone queue).lastOn backend start).store.queue queue.1) ∧
      ∀ order : List (String × Instant), order.Perm queues →
        (engine.sweep measured order).outcomeOn backend start = .ok total ∧
        ∀ name, ((engine.sweep measured order).lastOn backend start).store.queue name =
          (swept.lastOn backend start).store.queue name) ∧
    (∀ name ∉ queues.map Prod.fst,
      (swept.lastOn backend start).store.queue name = start.store.queue name) ∧
    ∀ queue count,
      (engine.sweepQueue measured queue.1 queue.2).outcomeOn backend start = .ok count →
        (alone queue).outcomeOn backend start = .ok count := by
  intro backend alone swept
  have ends_iff_calm := sweep_ends_iff engine measured refusals start queues distinct
  refine ⟨ends_iff_calm, ?_, ?_, ?_⟩
  · intro total ended
    have calm := ends_iff_calm.mp ⟨total, ended⟩
    obtain ⟨last, ends, left, -⟩ := ends_sweep engine measured refusals start queues distinct calm
    obtain ⟨counted, lastIs⟩ := ends_iff.mp ends
    refine ⟨Outcome.ok.inj (ended.symm.trans counted), ?_, ?_⟩
    · intro queue listed
      rw [lastIs]
      exact left queue listed
    · intro order permuted
      obtain ⟨same, stores⟩ := sweep_permuted engine measured refusals start permuted distinct calm
      exact ⟨same.trans ended, stores⟩
  · intro name unlisted
    exact sweep_apart engine measured refusals start queues distinct unlisted
  · intro queue count counted
    obtain ⟨outcome, last, ended, -, counts, -⟩ :=
      ends_sweepQueue engine measured refusals start queue.1 queue.2
    exact counts count ((ends_iff.mp ended).1.symm.trans counted)

end

def twoExpired : Faltering MemoryStore :=
  ⟨MemoryStore.after
    [.push "a" ⟨1⟩ [] 0, .addProcessing "a" ⟨1⟩ ⟨"f"⟩ 0, .setPayload "a" ⟨"f"⟩ typed.encode,
      .push "b" ⟨1⟩ [] 0, .addProcessing "b" ⟨1⟩ ⟨"f"⟩ 0], []⟩

def firstRefused : Refusals := fun _ call => if call.queue = "a" then some (.store "down") else none

/-- The second queue is swept as alone, before the refused one and after it. -/
theorem sweep_as_alone_refused :
    let backend := Faltering.backend MemoryStore.backend firstRefused
    [("a", noon), ("b", noon)].map Prod.fst = ["a", "b"] ∧
      (standard.sweep true [("a", noon), ("b", noon)]).outcomeOn backend twoExpired = .ok 0 ∧
      ((standard.sweep true [("a", noon), ("b", noon)]).lastOn backend twoExpired).store.queue "b" =
        ((standard.requeueExpired "b" noon).lastOn backend twoExpired).store.queue "b" ∧
      (standard.sweep true [("b", noon), ("a", noon)]).outcomeOn backend twoExpired = .ok 0 := by
  have ended : (standard.sweep true [("a", noon), ("b", noon)]).outcomeOn
      (Faltering.backend MemoryStore.backend firstRefused) twoExpired = .ok 0 := by
    decide +kernel
  obtain ⟨-, asAlone, -⟩ :=
    sweep_as_alone standard true firstRefused twoExpired [("a", noon), ("b", noon)] (by decide)
  obtain ⟨-, left, permuted⟩ := asAlone 0 ended
  exact ⟨rfl, ended, left ("b", noon) (by simp), (permuted _ (List.Perm.swap ..)).1⟩

def strained : Engine :=
  ⟨{ Config.standard with
      backoffBase := Duration.ofSeconds 10000000000000
      backoffMax := Duration.ofSeconds 10000000000000 }⟩

/-- The first queue crashes the sweep, though no call is refused, and the second keeps an entry that its
own sweep drops. -/
theorem sweep_not_as_alone :
    let backend := Faltering.backend MemoryStore.backend fun _ _ => none
    let swept := strained.sweep false [("a", noon), ("b", noon)]
    let alone := strained.requeueExpired "b" noon
    strained.config.validate = .ok () ∧
      swept.outcomeOn backend twoExpired = .crashed .beyondCalendar ∧
      alone.outcomeOn backend twoExpired = .ok 0 ∧
      ((swept.lastOn backend twoExpired).store.queue "b").expiredProcessing ⟨1⟩ noon.epochSeconds =
        [⟨"f"⟩] ∧
      ((alone.lastOn backend twoExpired).store.queue "b").expiredProcessing ⟨1⟩ noon.epochSeconds = [] := by
  refine ⟨rfl, ?_, ?_, ?_, ?_⟩ <;> decide +kernel

end Engine
end TenantQueue
