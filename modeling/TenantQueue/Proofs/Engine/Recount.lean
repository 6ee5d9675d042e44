import TenantQueue.Proofs.Engine.Logging
import TenantQueue.Proofs.Intake
import TenantQueue.Proofs.Metrics

/-! What a sweep tells of the tasks that it has put back. What the delivery on one queue returns is what it has put
back, but a queue whose turn fails is counted with nothing, whatever was put back on it before. -/
namespace TenantQueue

def Notice.toldAgain (notices : List Notice) : Nat :=
  ((observations notices).map Observation.redelivered).sum

theorem Notice.toldAgain_append (first second : List Notice) :
    toldAgain (first ++ second) = toldAgain first + toldAgain second := by
  rw [toldAgain, observations_append, List.map_append, List.sum_append]
  rfl

theorem Notice.observations_eq_nil {notices : List Notice}
    (silent : ∀ notice ∈ notices, notice.observation? = none) : observations notices = [] :=
  List.filterMap_eq_nil_iff.mpr silent

namespace Engine
open Program
variable {σ : Type} {backend : Backend σ}

theorem tallies_total {α : Type} {work : α → Program Nat} (members : List α)
    (each : ∀ member, (work member).Tallies backend Eq) : (total work members).Tallies backend Eq := by
  induction members with
  | nil => exact tallies_done 0 rfl
  | cons first rest ih =>
    refine tallies_bind (each first) ?_
    rintro count _ rfl
    refine tallies_bind ih ?_
    rintro others _ rfl
    exact tallies_done _ (Nat.add_zero _).symm

theorem tallies_requeue (engine : Engine) (queue : String) (tenant : Tenant) (task : Task) (now : Instant) :
    (engine.requeue queue tenant task now).Tallies backend fun _ count => count = 1 := by
  unfold requeue
  dsimp only
  split
  · exact tallies_crashed _
  · refine tallies_once ?_ fun _ => makes_bind _ _ (makes_complete queue tenant nofun) fun _ => trivial
    exact tallies_later (makes_ofExcept _) fun _ => tallies_once (tallies_push queue tenant _ _) fun _ => trivial

theorem tallies_requeueEntry (engine : Engine) (queue : String) (tenant : Tenant) (now : Instant)
    (fingerprint : Fingerprint) : (engine.requeueEntry queue tenant now fingerprint).Tallies backend Eq := by
  have drops : (dropEntry queue tenant fingerprint).Makes fun call => call.kind ≠ .push :=
    makes_dropEntry queue tenant fingerprint nofun nofun
  refine tallies_later (makes_storedTask queue tenant fingerprint nofun) fun stored => ?_
  cases stored with
  | none => exact tallies_later drops fun _ => tallies_done 0 rfl
  | some task =>
    refine tallies_bind (tallies_requeue engine queue tenant task now) ?_
    rintro _ _ rfl
    exact tallies_later drops fun _ => tallies_done 1 rfl

/-- What a delivery that ends well returns is the number of tasks that it has put back. -/
theorem tallies_requeueExpired (engine : Engine) (queue : String) (now : Instant) :
    (engine.requeueExpired queue now).Tallies backend Eq := by
  refine tallies_later (makes_perform _ nofun) fun registered => tallies_total _ fun entry => ?_
  refine tallies_later (makes_perform _ nofun) fun expired => tallies_total _ fun fingerprint => ?_
  exact tallies_requeueEntry engine queue entry.1 now fingerprint

structure SweepTurn where
  put : Nat
  delivered : Outcome Nat
  swept : Outcome Nat

/-- The turns of the queues in a sweep, which goes on after a failure and not after a crash. -/
def sweepTurns (backend : Backend σ) (engine : Engine) (measured : Bool) :
    List (String × Instant) → σ → List SweepTurn
  | [], _ => []
  | queue :: rest, state =>
    let alone := engine.requeueExpired queue.1 queue.2
    let swept := engine.sweepQueue measured queue.1 queue.2
    ⟨alone.puts backend state, alone.outcomeOn backend state, swept.outcomeOn backend state⟩ ::
      match swept.outcomeOn backend state with
      | .crashed _ => []
      | _ => sweepTurns backend engine measured rest (swept.lastOn backend state)

def measureSwept (measured : Bool) (queue : String) (count : Nat) : Program Nat :=
  if measured then do
    .observe (.requeued queue count)
    let depth ← size queue
    .observe (.depth queue depth)
    return count
  else return count

theorem sweepQueue_eq (engine : Engine) (measured : Bool) (queue : String) (now : Instant) :
    engine.sweepQueue measured queue now =
      engine.requeueExpired queue now >>= measureSwept measured queue := by
  cases measured <;> rfl

theorem run_measureSwept (backend : Backend σ) (measured : Bool) (queue : String) (count : Nat) (state : σ) :
    Notice.toldAgain ((measureSwept measured queue count).run backend state).2.1 =
        (if measured then count else 0) ∧
      ∀ result, ((measureSwept measured queue count).run backend state).1 = .ok result → result = count := by
  cases measured with
  | false => exact ⟨rfl, fun result same => (Outcome.ok.inj same).symm⟩
  | true =>
    -- The count is told first. If the store does not say its size, the turn does not end well.
    have ran : (measureSwept true queue count).run backend state =
        match backend.perform (.size queue) state with
        | (.ok depth, after) =>
          (.ok count, [.observed (.requeued queue count), .observed (.depth queue depth)], after)
        | (.failed failure, after) => (.failed failure, [.observed (.requeued queue count)], after)
        | (.crashed crash, after) => (.crashed crash, [.observed (.requeued queue count)], after) := by
      change Program.run backend (note _ (call (.size queue) fun reply => (ofExcept reply).bind _)) state = _
      simp only [run]
      rcases backend.perform (.size queue) state with ⟨depth | failure | crash, after⟩ <;> rfl
    rw [ran]
    rcases backend.perform (.size queue) state with ⟨depth | failure | crash, after⟩
    · exact ⟨rfl, fun result same => (Outcome.ok.inj same).symm⟩
    · exact ⟨rfl, fun result ended => by cases ended⟩
    · exact ⟨rfl, fun result ended => by cases ended⟩

/-- To measure a queue puts nothing in. -/
theorem puts_sweepQueue (backend : Backend σ) (engine : Engine) (measured : Bool) (queue : String)
    (now : Instant) (state : σ) : (engine.sweepQueue measured queue now).puts backend state =
      (engine.requeueExpired queue now).puts backend state := by
  have silent (count : Nat) : (measureSwept measured queue count).Makes fun call => call.kind ≠ .push := by
    cases measured with
    | false => trivial
    | true => exact makes_bind _ _ trivial fun _ => makes_bind _ _ (makes_perform _ nofun) fun _ => trivial
  rw [sweepQueue_eq, puts_bind]
  split
  · exact Nat.add_eq_left.mpr (puts_eq_zero backend _ _ (silent _))
  · rfl

/-- What is told of a delivery that has ended well is what it has returned, before the queue is measured. -/
theorem run_sweepQueue (backend : Backend σ) (engine : Engine) (measured : Bool) (queue : String)
    (now : Instant) (state : σ) :
    Notice.toldAgain ((engine.sweepQueue measured queue now).run backend state).2.1 =
        (if measured then ((engine.requeueExpired queue now).outcomeOn backend state).counted else 0) ∧
      ∀ count, (engine.sweepQueue measured queue now).outcomeOn backend state = .ok count →
        (engine.requeueExpired queue now).outcomeOn backend state = .ok count := by
  have logged : ∀ notice ∈ ((engine.requeueExpired queue now).run backend state).2.1,
      notice.observation? = none :=
    run_notes backend _ state (notes_requeueExpired (fun _ _ => rfl) engine queue now)
  have untold : Notice.toldAgain ((engine.requeueExpired queue now).run backend state).2.1 = 0 := by
    rw [Notice.toldAgain, Notice.observations_eq_nil logged]
    rfl
  rw [sweepQueue_eq]
  unfold outcomeOn
  change Notice.toldAgain (Program.run backend (Program.bind _ _) state).2.1 = _ ∧
    ∀ count, (Program.run backend (Program.bind _ _) state).1 = _ → _
  rw [run_bind]
  rcases ran : (engine.requeueExpired queue now).run backend state with
    ⟨count | failure | crash, notices, middle⟩
  · obtain ⟨told, gives⟩ := run_measureSwept backend measured queue count middle
    rw [ran] at untold
    dsimp only at untold told gives ⊢
    rw [Notice.toldAgain_append, untold, Nat.zero_add]
    refine ⟨told, ?_⟩
    intro result ended
    rw [gives result ended]
  · rw [ran] at untold
    dsimp only at untold ⊢
    rw [untold]
    refine ⟨?_, nofun⟩
    cases measured <;> rfl
  · rw [ran] at untold
    dsimp only at untold ⊢
    rw [untold]
    refine ⟨?_, nofun⟩
    cases measured <;> rfl

theorem puts_turn (backend : Backend σ) (engine : Engine) (measured : Bool) (queue : String × Instant)
    (state : σ) : (engine.turn measured queue).puts backend state =
      (engine.requeueExpired queue.1 queue.2).puts backend state := by
  unfold turn
  rw [puts_bind, puts_attempt, puts_sweepQueue]
  refine Nat.add_eq_left.mpr ?_
  split
  · refine puts_eq_zero backend _ _ ?_
    split
    · trivial
    · exact makes_bind _ _ trivial fun _ => trivial
  · rfl

/-- A turn tells what its sweep tells, and logs a failure. -/
theorem run_turn (backend : Backend σ) (engine : Engine) (measured : Bool) (queue : String × Instant)
    (state : σ) :
    let swept := engine.sweepQueue measured queue.1 queue.2
    ∃ notices, (engine.turn measured queue).run backend state =
        ((swept.outcomeOn backend state).logged, notices, swept.lastOn backend state) ∧
      Notice.toldAgain notices = Notice.toldAgain (swept.run backend state).2.1 := by
  intro swept
  have attempted := run_attempt backend swept state
  unfold turn outcomeOn lastOn
  change ∃ notices, (Program.bind swept.attempt _).run backend state = _ ∧ _
  rw [run_bind, attempted]
  rcases swept.run backend state with ⟨count | failure | crash, notices, last⟩
  · exact ⟨notices ++ [], rfl, by rw [List.append_nil]⟩
  · exact ⟨notices ++ [.log .error _], rfl, by rw [Notice.toldAgain_append]; rfl⟩
  · exact ⟨notices, rfl, rfl⟩

section
variable {α : Type} (backend : Backend σ) (work : α → Program Nat) (member : α) (rest : List α) (state : σ)

theorem run_total_cons : (total work (member :: rest)).run backend state =
    match (work member).run backend state with
    | (.ok count, notices, middle) =>
      (((total work rest).run backend middle).1.plus count,
        notices ++ ((total work rest).run backend middle).2.1, ((total work rest).run backend middle).2.2)
    | (.failed failure, notices, middle) => (.failed failure, notices, middle)
    | (.crashed crash, notices, middle) => (.crashed crash, notices, middle) := by
  change (Program.bind (work member) fun count => Program.bind (total work rest) fun others =>
    done (count + others)).run backend state = _
  rw [run_bind]
  rcases (work member).run backend state with ⟨count | failure | crash, notices, middle⟩
  · dsimp only
    rw [run_bind]
    rcases (total work rest).run backend middle with ⟨others | failure | crash, more, last⟩
    · simp only [run, List.append_nil]
      rfl
    · rfl
    · rfl
  · rfl
  · rfl

theorem puts_total_cons : (total work (member :: rest)).puts backend state =
    (work member).puts backend state +
      match (work member).run backend state with
      | (.ok _, _, middle) => (total work rest).puts backend middle
      | _ => 0 := by
  have sums (count : Nat) (middle : σ) : (total work rest >>= fun others => done (count + others)).puts
      backend middle = (total work rest).puts backend middle := by
    rw [puts_bind]
    split <;> rfl
  change (work member >>= fun count => total work rest >>= fun others => done (count + others)).puts
    backend state = _
  rw [puts_bind]
  rcases (work member).run backend state with ⟨count | failure | crash, notices, middle⟩
  · exact congrArg (_ + ·) (sums count middle)
  · rfl
  · rfl

end

/-- A sweep is the sum of its turns, as long as none of them breaks it off. -/
theorem run_sweep (backend : Backend σ) (engine : Engine) (measured : Bool)
    (queues : List (String × Instant)) (state : σ) :
    let turns := sweepTurns backend engine measured queues state
    let swept := engine.sweep measured queues
    swept.puts backend state = (turns.map SweepTurn.put).sum ∧
      Notice.toldAgain (swept.run backend state).2.1 =
        (if measured then (turns.map fun turn => turn.delivered.counted).sum else 0) ∧
      ((∃ turn ∈ turns, ∃ crash, turn.swept = .crashed crash ∧ swept.outcomeOn backend state = .crashed crash) ∨
        (∀ turn ∈ turns, ∀ crash, turn.swept ≠ .crashed crash) ∧
          swept.outcomeOn backend state = .ok (turns.map fun turn => turn.swept.counted).sum) := by
  intro turns swept
  unfold turns swept
  rw [sweep_eq]
  unfold outcomeOn
  induction queues generalizing state with
  | nil =>
    refine ⟨rfl, ?_, Or.inr ⟨List.forall_mem_nil _, rfl⟩⟩
    cases measured <;> rfl
  | cons queue rest ih =>
    obtain ⟨notices, ran, told⟩ := run_turn backend engine measured queue state
    obtain ⟨toldSwept, -⟩ := run_sweepQueue backend engine measured queue.1 queue.2 state
    rw [run_total_cons, puts_total_cons, puts_turn, ran]
    generalize left : (engine.sweepQueue measured queue.1 queue.2).lastOn backend state = middle
    cases ended : (engine.sweepQueue measured queue.1 queue.2).outcomeOn backend state with
    | crashed crash =>
      simp only [sweepTurns, ended, Outcome.logged, List.map_singleton, List.sum_singleton]
      exact ⟨rfl, told.trans toldSwept, Or.inl ⟨_, List.mem_singleton_self _, crash, rfl, rfl⟩⟩
    | _ =>
      obtain ⟨puts, tells, goesOn⟩ := ih middle
      simp only [sweepTurns, ended, left, Outcome.logged, List.map_cons, List.sum_cons]
      refine ⟨congrArg (_ + ·) puts, ?_, ?_⟩
      · rw [Notice.toldAgain_append, told, toldSwept, tells]
        cases measured <;> rfl
      · rcases goesOn with ⟨turn, listed, crash, broken, crashed⟩ | ⟨calm, ends⟩
        · exact Or.inl ⟨turn, List.mem_cons_of_mem _ listed, crash, broken, by rw [crashed]; rfl⟩
        · refine Or.inr ⟨List.forall_mem_cons.mpr ⟨fun _ => nofun, calm⟩, ?_⟩
          rw [ends]
          rfl

/-- Where each turn that ends well counts with what was put back in it, and each other one with nothing, no more is
counted than was put back, and as much exactly if nothing was put back in the others. -/
theorem counted_le (turns : List SweepTurn) (result : SweepTurn → Outcome Nat)
    (counts : ∀ turn ∈ turns, ∀ count, result turn = .ok count → count = turn.put) :
    (turns.map fun turn => (result turn).counted).sum ≤ (turns.map SweepTurn.put).sum ∧
      ((turns.map fun turn => (result turn).counted).sum = (turns.map SweepTurn.put).sum ↔
        ∀ turn ∈ turns, turn.put = 0 ∨ ∃ count, result turn = .ok count) := by
  induction turns with
  | nil => simp
  | cons turn rest ih =>
    obtain ⟨here, later⟩ := List.forall_mem_cons.mp counts
    obtain ⟨fewer, same_iff⟩ := ih later
    have once : (result turn).counted ≤ turn.put ∧
        ((result turn).counted = turn.put ↔ turn.put = 0 ∨ ∃ count, result turn = .ok count) := by
      cases ended : result turn with
      | ok count => simp [Outcome.counted, here count ended]
      | failed failure => simp [Outcome.counted, eq_comm]
      | crashed crash => simp [Outcome.counted, eq_comm]
    rw [List.forall_mem_cons, ← once.2, ← same_iff]
    simp only [List.map_cons, List.sum_cons]
    omega

theorem sweepTurns_counts (backend : Backend σ) (engine : Engine) (measured : Bool)
    (queues : List (String × Instant)) (state : σ) :
    ∀ turn ∈ sweepTurns backend engine measured queues state,
      (∀ count, turn.delivered = .ok count → count = turn.put) ∧
        ∀ count, turn.swept = .ok count → count = turn.put := by
  induction queues generalizing state with
  | nil => exact List.forall_mem_nil _
  | cons queue rest ih =>
    have delivers (count : Nat)
        (ended : (engine.requeueExpired queue.1 queue.2).outcomeOn backend state = .ok count) :
        count = (engine.requeueExpired queue.1 queue.2).puts backend state :=
      tallies_requeueExpired engine queue.1 queue.2 state count _ (ends_iff.mpr ⟨ended, rfl⟩)
    refine List.forall_mem_cons.mpr ⟨⟨delivers, ?_⟩, ?_⟩
    · intro count ended
      exact delivers count ((run_sweepQueue backend engine measured queue.1 queue.2 state).2 count ended)
    · split
      · exact List.forall_mem_nil _
      · exact ih _

/-- On a store of any kind, which may refuse any calls, the total that a sweep returns is the number of tasks that
it has put back exactly if none was put back on a queue whose turn then failed; and what it adds to the counter of
requeued tasks is that number exactly if none was put back on a queue on which the delivery then failed. -/
theorem sweep_total_eq_iff (backend : Backend σ) (engine : Engine) (measured : Bool)
    (queues : List (String × Instant)) (state : σ) :
    let turns := sweepTurns backend engine measured queues state
    let swept := engine.sweep measured queues
    let told := Notice.toldAgain (swept.run backend state).2.1
    swept.puts backend state = (turns.map SweepTurn.put).sum ∧
      ((∃ total, swept.outcomeOn backend state = .ok total) ↔
        ∀ turn ∈ turns, ∀ crash, turn.swept ≠ .crashed crash) ∧
      (∀ total, swept.outcomeOn backend state = .ok total →
        total ≤ swept.puts backend state ∧
          (total = swept.puts backend state ↔
            ∀ turn ∈ turns, turn.put = 0 ∨ ∃ count, turn.swept = .ok count)) ∧
      (∀ metrics : Metrics,
        (metrics.recordAll (Notice.observations (swept.run backend state).2.1)).requeued.total =
          metrics.requeued.total + UInt64.ofNat told) ∧
      (measured = false → told = 0) ∧
      (measured = true →
        told ≤ swept.puts backend state ∧
          (told = swept.puts backend state ↔
            ∀ turn ∈ turns, turn.put = 0 ∨ ∃ count, turn.delivered = .ok count)) := by
  intro turns swept told
  obtain ⟨puts, tells, outcome⟩ := run_sweep backend engine measured queues state
  have counts := sweepTurns_counts backend engine measured queues state
  refine ⟨puts, ⟨?ends, ?lasts⟩, ?total, fun metrics => metrics.total_requeued _, ?unmeasured, ?measured⟩
  case ends =>
    rintro ⟨total, ended⟩
    rcases outcome with ⟨_, _, crash, _, crashed⟩ | ⟨calm, _⟩
    · rw [ended] at crashed
      contradiction
    · exact calm
  case lasts =>
    intro calm
    rcases outcome with ⟨turn, listed, crash, broken, _⟩ | ⟨_, ends⟩
    · exact absurd broken (calm turn listed crash)
    · exact ⟨_, ends⟩
  case total =>
    intro total ended
    rcases outcome with ⟨_, _, crash, _, crashed⟩ | ⟨_, ends⟩
    · rw [ended] at crashed
      contradiction
    · rw [ended] at ends
      rw [Outcome.ok.inj ends, puts]
      exact counted_le turns SweepTurn.swept fun turn listed => (counts turn listed).2
  case unmeasured =>
    rintro rfl
    exact tells
  case measured =>
    rintro rfl
    have told_eq : told = (turns.map fun turn => turn.delivered.counted).sum := tells
    rw [told_eq, puts]
    exact counted_le turns SweepTurn.delivered fun turn listed => (counts turn listed).1

def refusesFirst (kind : Call.Kind) : Backend (Disrupted MemoryStore) :=
  Disrupted.backend MemoryStore.backend (Fault.disruptions [⟨kind, 0, 1, false⟩])

def oneExpired : Disrupted MemoryStore :=
  Disrupted.ofStore (MemoryStore.after
    [.push "q" ⟨1⟩ typed.encode 0, .pop "q", .addProcessing "q" ⟨1⟩ ⟨"f"⟩ 0,
      .setPayload "q" ⟨"f"⟩ typed.encode])

/-- A task is put back, but its slot is not taken back: neither the sweep nor the metrics count it. If only the size
of the queue cannot be told, the metrics count it and the sweep does not. -/
theorem sweep_total_misses :
    let swept := standard.sweep true [("q", noon)]
    let counted (kind : Call.Kind) := (Metrics.empty.recordAll
      (Notice.observations (swept.run (refusesFirst kind) oneExpired).2.1)).requeued.total
    let pending (state : Disrupted MemoryStore) := ((state.store.queue "q").pendingOf ⟨1⟩).size
    pending oneExpired = 0 ∧
      swept.outcomeOn (refusesFirst .release) oneExpired = .ok 0 ∧ counted .release = 0 ∧
      swept.puts (refusesFirst .release) oneExpired = 1 ∧
      pending (swept.lastOn (refusesFirst .release) oneExpired) = 1 ∧
      swept.outcomeOn (refusesFirst .size) oneExpired = .ok 0 ∧ counted .size = 1 ∧
      swept.puts (refusesFirst .size) oneExpired = 1 := by
  decide +kernel

end Engine
end TenantQueue
