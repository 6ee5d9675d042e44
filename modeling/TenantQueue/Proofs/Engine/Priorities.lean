import TenantQueue.Proofs.Engine.Arrivals
import TenantQueue.Proofs.Score

/-! The order in which a tenant's tasks leave a queue. As long as the times of the tasks are not as far
apart as the offsets of the priorities, they leave by priority, then by the microsecond of their time,
and then by their records. Times are compared by whole microseconds: at the very end of that span a
task of a higher priority can tie with one that is less than the offset older. -/
namespace TenantQueue

def Priority.rank : Priority → Nat
  | high => 0
  | normal => 1
  | low => 2

namespace Arrival

/-- By priority, then by microsecond, then by record. -/
def Precedes (first second : Arrival) : Prop :=
  first.priority.rank < second.priority.rank ∨
    first.priority = second.priority ∧
      (first.time.microseconds < second.time.microseconds ∨
        first.time.microseconds = second.time.microseconds ∧
          compare first.record second.record = .lt)

/-- Less than the offset of a priority apart, in whole microseconds. -/
def Close (first second : Arrival) : Prop :=
  first.time.microseconds < second.time.microseconds + 10000000 * 1000000 ∧
    second.time.microseconds < first.time.microseconds + 10000000 * 1000000

instance (first second : Arrival) : Decidable (first.Close second) := by
  unfold Close
  infer_instance

def exactEntry (arrival : Arrival) : ℚ × Bytes :=
  (exactScore arrival.time arrival.priority, arrival.record)

variable {first second : Arrival}

theorem exactEntry_lt_iff :
    ScoredSet.precedence first.exactEntry second.exactEntry = .lt ↔
      exactMicroseconds first.time first.priority < exactMicroseconds second.time second.priority ∨
        exactMicroseconds first.time first.priority = exactMicroseconds second.time second.priority ∧
          compare first.record second.record = .lt := by
  rw [ScoredSet.precedence, Ordering.then_eq_lt, compare_lt_iff_lt, compare_eq_iff_eq]
  unfold exactEntry
  rw [exactScore_lt_iff, exactScore_eq_iff]

/-- Among times that are less than the offset apart, the order of the scores is that of the priorities,
then of the microseconds. -/
theorem exactEntry_lt_iff_precedes (close : first.Close second) :
    ScoredSet.precedence first.exactEntry second.exactEntry = .lt ↔ first.Precedes second := by
  unfold Close at close
  rw [exactEntry_lt_iff, Precedes]
  unfold exactMicroseconds
  cases first.priority <;> cases second.priority <;> simp [Priority.rank, Priority.seconds] <;> omega

end Arrival

def exactly (added : List Arrival) : ScoredSet ℚ Bytes :=
  ScoredSet.empty.insertAll (added.map fun arrival => arrival.exactEntry.swap)

def Faithful (added : List Arrival) : Prop :=
  ∀ first ∈ added, ∀ second ∈ added,
    exactScore first.time first.priority < exactScore second.time second.priority →
      compare first.score second.score = .lt

theorem faithful_of_near {added : List Arrival} (near : ∀ arrival ∈ added, arrival.time.Near) :
    Faithful added :=
  fun first member second also less =>
    score_lt (near first member) (near second also) (exactScore_lt_iff.mp less)

theorem Faithful.entry_lt {added : List Arrival} (faithful : Faithful added) {first second : Arrival}
    (member : first ∈ added) (also : second ∈ added)
    (close : first.Close second) (before : first.Precedes second) :
    ScoredSet.precedence first.entry second.entry = .lt := by
  rw [ScoredSet.precedence, Ordering.then_eq_lt]
  obtain less | ⟨tied, records⟩ := Arrival.exactEntry_lt_iff.mp
    ((Arrival.exactEntry_lt_iff_precedes close).mpr before)
  · exact Or.inl (faithful first member second also (exactScore_lt_iff.mpr less))
  · -- Within the span, equal scores are those of one priority and one microsecond.
    have same : first.priority = second.priority ∧
        first.time.microseconds = second.time.microseconds := by
      unfold Arrival.Close at close
      unfold exactMicroseconds at tied
      cases ranked : first.priority <;> cases other : second.priority <;>
        simp [ranked, other, Priority.seconds] at tied ⊢ <;> omega
    refine Or.inr ⟨?_, records⟩
    rw [Std.LawfulEqOrd.compare_eq_iff_eq]
    exact (score_congr same.2).trans (congrArg (score second.time) same.1)

namespace Engine

/-- Operations that add these tasks to a tenant's empty pending set, in any order, and take none. -/
structure Fills (engine : Engine) (queue : String) (tenant : Tenant) (store : MemoryStore)
    (added : List Arrival) (operations : List Operation) : Prop where
  vacant : ¬(store.queue queue).Waits tenant
  addsOnly : engine.AddsOnly queue tenant store operations
  arrivals : (engine.arrivals queue tenant operations).Perm added
  untouched : takenRecords queue tenant (engine.events store operations) = []

variable {engine : Engine} {queue : String} {tenant : Tenant} {store : MemoryStore}
  {added line : List Arrival} {entering : List Operation}

theorem Fills.ordered_pendingOf (fills : engine.Fills queue tenant store added entering)
    (sound : store.Sound) (distinct : (added.map Arrival.record).Nodup) (permuted : line.Perm added)
    (sorted : ScoredSet.Sorted (line.map Arrival.entry)) :
    (((entering.foldl engine.perform store).queue queue).pendingOf tenant).ordered =
      line.map Arrival.entry := by
  have vacant : (store.queue queue).pendingOf tenant = ScoredSet.empty := by
    refine ScoredSet.eq_empty_of_isEmpty _ ((sound queue).pendingInStep tenant) ?_
    exact (ScoredSet.isEmpty_iff _).mpr ((QueueState.not_waits_iff _ _).mp fills.vacant)
  rw [foldl_perform, MemoryStore.pendingOf_untouched store sound _ fills.untouched, vacant,
    fills.addsOnly, List.map_map]
  have entered : ((engine.arrivals queue tenant entering).map Arrival.record).Nodup :=
    (fills.arrivals.map Arrival.record).nodup_iff.mpr distinct
  exact ScoredSet.ordered_insertAll_empty entered (permuted.trans fills.arrivals.symm) sorted

/-- What is in a tenant's pending set leaves it in its order as long as nothing else is added. -/
theorem taken_of_no_arrivals {popping : List Operation} (sound : store.Sound)
    (addsOnly : engine.AddsOnly queue tenant store popping)
    (nothing : engine.arrivals queue tenant popping = []) :
    takenRecords queue tenant (engine.events store popping) ++
        (((popping.foldl engine.perform store).queue queue).pendingOf tenant).members =
      ((store.queue queue).pendingOf tenant).members := by
  have inStep := (sound queue).pendingInStep tenant
  have entries : entriesFor queue tenant (engine.course store popping) = [] := by
    rw [addsOnly, nothing]
    rfl
  have all (set : ScoredSet Double Bytes) : set.selected (fun _ => true) = set.ordered :=
    List.filter_true _
  have taken := MemoryStore.taken_in_order queue tenant store sound (engine.course store popping)
    fun _ => true
  rw [entries, List.filter_nil, List.append_nil, List.filter_true, all, all, ← foldl_perform] at taken
  exact taken inStep.sorted (ScoredSet.members_nodup _ inStep)

/-- Tasks with different records, their times less than the offset of the priorities apart, stand in
one line: by priority, then by microsecond, then by record. Exact scores put them in this line in
whatever order they are added, and so do the doubles of a store where they keep the order of the exact
scores, as they do for more than a hundred years around the epoch. From there the tasks leave the queue
in the order of the line, whatever is done for other tenants meanwhile. -/
theorem popped_by_priority (added : List Arrival) (distinct : (added.map Arrival.record).Nodup)
    (close : ∀ first ∈ added, ∀ second ∈ added, first.Close second) :
    ∃ line : List Arrival, line.Perm added ∧ line.Pairwise Arrival.Precedes ∧
      (∀ order : List Arrival, order.Perm added →
        (exactly order).members = line.map Arrival.record) ∧
      ((∀ arrival ∈ added, arrival.time.Near) → Faithful added) ∧
      (Faithful added → ∀ (engine : Engine) (queue : String) (tenant : Tenant) (calls : List Call)
        (entering popping : List Operation),
        let filled := entering.foldl engine.perform (MemoryStore.after calls)
        engine.Fills queue tenant (MemoryStore.after calls) added entering →
        engine.AddsOnly queue tenant filled popping → engine.arrivals queue tenant popping = [] →
          takenRecords queue tenant (engine.events filled popping) ++
              (((popping.foldl engine.perform filled).queue queue).pendingOf tenant).members =
            line.map Arrival.record) := by
  obtain ⟨line, permuted, sorted⟩ := ScoredSet.exists_sorted Arrival.exactEntry added distinct
  have all {first second : Arrival} (member : first ∈ line) (also : second ∈ line) :
      first.Close second :=
    close first (permuted.mem_iff.mp member) second (permuted.mem_iff.mp also)
  have precedes : line.Pairwise Arrival.Precedes := by
    refine (List.pairwise_map.mp sorted).imp_of_mem fun member also before => ?_
    exact (Arrival.exactEntry_lt_iff_precedes (all member also)).mp before
  refine ⟨line, permuted, precedes, ?_, faithful_of_near, ?_⟩
  · intro order reordered
    have entered : (order.map Arrival.record).Nodup :=
      (reordered.map Arrival.record).nodup_iff.mpr distinct
    have ordered : (exactly order).ordered = line.map Arrival.exactEntry :=
      ScoredSet.ordered_insertAll_empty entered (permuted.trans reordered.symm) sorted
    rw [ScoredSet.members, ordered, List.map_map]
    rfl
  · intro faithful engine queue tenant calls entering popping filled fills addsOnly nothing
    have rising : ScoredSet.Sorted (line.map Arrival.entry) := by
      refine List.pairwise_map.mpr (precedes.imp_of_mem fun member also before => ?_)
      exact faithful.entry_lt (permuted.mem_iff.mp member) (permuted.mem_iff.mp also) (all member also)
        before
    have sound : filled.Sound := by
      unfold filled
      rw [foldl_perform]
      exact MemoryStore.performAll_sound _ _ (MemoryStore.after_sound calls)
    rw [taken_of_no_arrivals sound addsOnly nothing, ScoredSet.members,
      fills.ordered_pendingOf (MemoryStore.after_sound calls) distinct permuted rising, List.map_map]
    rfl

def urgentLast : List Arrival :=
  [⟨⟨"t", ⟨1⟩, [0x61], ⟨1700000000, 0⟩, 0⟩, ⟨1700000000, 0⟩, .low⟩,
    ⟨⟨"t", ⟨1⟩, [0x62], ⟨1700000000, 0⟩, 0⟩, ⟨1700000001, 0⟩, .normal⟩,
    ⟨⟨"t", ⟨1⟩, [0x63], ⟨1700000000, 0⟩, 0⟩, ⟨1700000002, 0⟩, .high⟩]

/-- A task of another tenant is added meanwhile, and takes its turn. -/
theorem popped_by_priority_urgentLast :
    let rival : Task := ⟨"t", ⟨2⟩, [0x64], ⟨1700000000, 0⟩, 0⟩
    let entering : List Operation := .enqueueAt "q" ⟨2⟩ rival ⟨1700000000, 0⟩ .normal ::
      urgentLast.map fun arrival => .enqueueAt "q" ⟨1⟩ arrival.task arrival.time arrival.priority
    let popping : List Operation := List.replicate 4 (.next "q")
    (urgentLast.map Arrival.record).Nodup ∧
      ∃ line : List Arrival, line.Perm urgentLast ∧ line.Pairwise Arrival.Precedes ∧
        takenRecords "q" ⟨1⟩
          (standard.events (entering.foldl standard.perform MemoryStore.empty) popping) =
            line.map Arrival.record := by
  intro rival entering popping
  have distinct : (urgentLast.map Arrival.record).Nodup := by decide +kernel
  obtain ⟨line, permuted, precedes, -, faithful, drains⟩ :=
    popped_by_priority urgentLast distinct (by decide)
  have fills : standard.Fills "q" ⟨1⟩ (MemoryStore.after []) urgentLast entering := {
    vacant := by
      rintro ⟨record, present⟩
      contradiction
    addsOnly := addsOnly_of_no_sweep _ _ (by simp [entering])
    arrivals := by
      have same : standard.arrivals "q" ⟨1⟩ entering = urgentLast := by decide +kernel
      rw [same]
    untouched := by decide +kernel }
  have taken := drains (faithful (by decide)) standard "q" ⟨1⟩ [] entering popping fills
    (addsOnly_of_no_sweep _ _ (by simp [popping])) (by decide +kernel)
  have nothing : (((popping.foldl standard.perform (entering.foldl standard.perform
      (MemoryStore.after []))).queue "q").pendingOf ⟨1⟩).members = [] := by
    decide +kernel
  rw [nothing, List.append_nil] at taken
  exact ⟨distinct, line, permuted, precedes, taken⟩

/-- A nanosecond less than the offset apart, but ten million seconds apart in whole microseconds: the
scores tie, and the records decide. -/
theorem tied_high_not_first :
    let high : Arrival := ⟨⟨"t", ⟨1⟩, [0x62], ⟨1700000000, 0⟩, 0⟩, ⟨10000000, 998⟩, .high⟩
    let normal : Arrival := ⟨⟨"t", ⟨1⟩, [0x61], ⟨1700000000, 0⟩, 0⟩, ⟨0, 999⟩, .normal⟩
    let entering : List Operation :=
      [.enqueueAt "q" ⟨1⟩ high.task high.time high.priority,
        .enqueueAt "q" ⟨1⟩ normal.task normal.time normal.priority]
    (high.time.seconds * 1000000000 + high.time.nanos) -
        (normal.time.seconds * 1000000000 + normal.time.nanos) < 10000000 * 1000000000 ∧
      exactScore high.time high.priority = exactScore normal.time normal.priority ∧
      (exactly [high, normal]).members = [normal.record, high.record] ∧
      takenRecords "q" ⟨1⟩ (standard.events .empty (entering ++ [.next "q", .next "q"])) =
        [normal.record, high.record] := by
  decide +kernel

end Engine
end TenantQueue
