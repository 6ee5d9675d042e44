import TenantQueue.Proofs.Engine.Arrivals
import TenantQueue.Proofs.Score
import TenantQueue.Proofs.Task.Moment

/-! A tenant's new tasks of one priority leave a queue in the order in which they are added, as long as the
clock moves on by a microsecond from one to the next. Within a microsecond the scores are equal, and the
records decide; and more than a hundred years from the epoch doubles do not tell microseconds apart. -/
namespace TenantQueue

structure Clocked (added : List Arrival) : Prop where
  new : ∀ arrival ∈ added, arrival.task.errorCount = 0
  valid : ∀ arrival ∈ added, arrival.task.queuedOn.IsValid
  moments : (added.map fun arrival => arrival.task.queuedOn).Nodup

theorem Clocked.records {added : List Arrival} (clocked : Clocked added) :
    (added.map Arrival.record).Nodup := by
  refine List.pairwise_map.mpr ((List.pairwise_map.mp clocked.moments).imp_of_mem ?_)
  intro first second member also differ same
  exact differ (Task.queuedOn_eq_of_encode_eq (clocked.new first member) (clocked.new second also)
    (clocked.valid first member) (clocked.valid second also) same)

namespace Arrival
variable {first second : Arrival}

/-- A task is added in an earlier microsecond than another of its priority, neither of them too far from
the epoch, or its score, or at equal scores its record, comes first for another reason. -/
def Ahead (first second : Arrival) : Prop :=
  first.time.microseconds < second.time.microseconds ∧ first.time.Near ∧ second.time.Near ∨
    ScoredSet.precedence first.entry second.entry = .lt

theorem Ahead.entry_lt (ahead : first.Ahead second) (same : first.priority = second.priority) :
    ScoredSet.precedence first.entry second.entry = .lt := by
  obtain ⟨earlier, near, also⟩ | before := ahead
  · have scores : exactMicroseconds first.time first.priority <
        exactMicroseconds second.time second.priority := by
      rw [exactMicroseconds, exactMicroseconds, same]
      exact Int.add_lt_add_right earlier _
    have less : compare first.score second.score = .lt := score_lt near also scores
    rw [ScoredSet.precedence, Ordering.then_eq_lt]
    exact Or.inl less
  · exact before

end Arrival

namespace Engine

theorem filter_entries {added : List Arrival} (distinct : (added.map Arrival.record).Nodup)
    (passes : Arrival → Bool) :
    (added.map Arrival.entry).filter (fun entry => entry.2 ∈ (added.filter passes).map Arrival.record) =
      (added.filter passes).map Arrival.entry := by
  rw [List.filter_map]
  congr 1
  refine List.filter_congr fun arrival member => ?_
  have own : arrival.record ∈ (added.filter passes).map Arrival.record ↔ passes arrival = true := by
    rw [List.mem_map]
    constructor
    · rintro ⟨other, chosen, same⟩
      obtain ⟨listed, passed⟩ := List.mem_filter.mp chosen
      rwa [← List.inj_on_of_nodup_map distinct listed member same]
    · exact fun passed => ⟨arrival, List.mem_filter.mpr ⟨member, passed⟩, rfl⟩
  simp only [Function.comp_apply, Arrival.entry, own]
  cases passes arrival <;> rfl

/-- The tasks of one priority that a tenant's calls add are popped in the order of the calls, and those
that are not popped yet wait in that order. -/
theorem popped_first_in_first_out (engine : Engine) (queue : String) (tenant : Tenant)
    (priority : Priority) (calls : List Call) (operations : List Operation)
    (addsOnly : engine.AddsOnly queue tenant (MemoryStore.after calls) operations)
    (clocked : Clocked (engine.arrivals queue tenant operations))
    (absent : ∀ arrival ∈ engine.arrivals queue tenant operations,
      (((MemoryStore.after calls).queue queue).pendingOf tenant).score? arrival.record = none)
    (ahead : (engine.arrivalsOf queue tenant priority operations).Pairwise Arrival.Ahead) :
    let store := MemoryStore.after calls
    let line := (engine.arrivalsOf queue tenant priority operations).map Arrival.record
    (takenRecords queue tenant (engine.events store operations)).filter (· ∈ line) ++
        (((operations.foldl engine.perform store).queue queue).pendingOf tenant).members.filter
          (· ∈ line) =
      line := by
  intro store line
  have sound : store.Sound := MemoryStore.after_sound calls
  have entered : (entriesFor queue tenant (engine.course store operations)).filter (·.2 ∈ line) =
      (engine.arrivalsOf queue tenant priority operations).map Arrival.entry := by
    rw [addsOnly]
    exact filter_entries clocked.records _
  have nothing : ((store.queue queue).pendingOf tenant).selected (· ∈ line) = [] := by
    apply List.eq_nil_iff_forall_not_mem.mpr
    rintro ⟨score, record⟩ member
    obtain ⟨present, listed⟩ :=
      (ScoredSet.mem_selected ((sound queue).pendingInStep tenant) score record).mp member
    obtain ⟨arrival, chosen, rfl⟩ := List.mem_map.mp (of_decide_eq_true listed)
    rw [absent arrival (List.mem_of_mem_filter chosen)] at present
    contradiction
  have rising : ScoredSet.Sorted ((engine.arrivalsOf queue tenant priority operations).map
      Arrival.entry) := by
    refine List.pairwise_map.mpr (ahead.imp_of_mem ?_)
    intro first second member also before
    apply before.entry_lt
    rw [of_decide_eq_true (List.mem_filter.mp member).2, of_decide_eq_true (List.mem_filter.mp also).2]
  have records : ((engine.arrivalsOf queue tenant priority operations).map Arrival.entry).map Prod.snd =
      line := by
    rw [List.map_map]
    rfl
  have distinct : line.Nodup := clocked.records.sublist (List.filter_sublist.map Arrival.record)
  have taken := MemoryStore.taken_in_order queue tenant store sound (engine.course store operations)
    (· ∈ line)
  rw [entered, nothing, List.nil_append, records] at taken
  have served := taken rising distinct
  rw [← foldl_perform] at served
  rw [ScoredSet.members, List.filter_map]
  exact served

/-- Tasks a microsecond apart, the bytes of the later one smaller; another tenant's task and one of
another priority are added meanwhile, and the first task is popped before the second one is added. -/
def paced : List Operation :=
  [.enqueue "q" "t" ⟨1⟩ [0x62] .normal ⟨1700000000, 0⟩ ⟨1700000000, 500⟩,
    .enqueue "q" "t" ⟨2⟩ [0x63] .normal ⟨1700000000, 600⟩ ⟨1700000000, 700⟩,
    .next "q",
    .enqueue "q" "t" ⟨1⟩ [0x61] .normal ⟨1700000000, 800⟩ ⟨1700000000, 1000⟩,
    .enqueue "q" "t" ⟨1⟩ [0x60] .high ⟨1700000000, 1200⟩ ⟨1700000000, 1400⟩,
    .next "q", .next "q", .next "q"]

theorem popped_first_in_first_out_paced :
    let line := (standard.arrivalsOf "q" ⟨1⟩ .normal paced).map Arrival.record
    line.length = 2 ∧ (takenRecords "q" ⟨1⟩ (standard.events (MemoryStore.after []) paced)).filter
      (· ∈ line) = line := by
  intro line
  have clocked : Clocked (standard.arrivals "q" ⟨1⟩ paced) :=
    ⟨by decide +kernel, by decide +kernel, by decide +kernel⟩
  have normal : standard.arrivalsOf "q" ⟨1⟩ .normal paced =
      [⟨⟨"t", ⟨1⟩, [0x62], ⟨1700000000, 0⟩, 0⟩, ⟨1700000000, 500⟩, .normal⟩,
        ⟨⟨"t", ⟨1⟩, [0x61], ⟨1700000000, 800⟩, 0⟩, ⟨1700000000, 1000⟩, .normal⟩] := by
    decide +kernel
  have ahead : (standard.arrivalsOf "q" ⟨1⟩ .normal paced).Pairwise Arrival.Ahead := by
    rw [normal]
    exact List.pairwise_pair.mpr (Or.inl (by decide))
  have whole := popped_first_in_first_out standard "q" ⟨1⟩ .normal [] paced
    (addsOnly_of_no_sweep _ _ (by simp [paced])) clocked (fun _ _ => rfl) ahead
  have nothing : (((paced.foldl standard.perform (MemoryStore.after [])).queue "q").pendingOf
      ⟨1⟩).members = [] := by
    decide +kernel
  dsimp only at whole
  rw [nothing, List.filter_nil, List.append_nil] at whole
  exact ⟨congrArg (fun added => (added.map Arrival.record).length) normal, whole⟩

/-- In one microsecond the smaller record overtakes; and in the year 2105 a task of low priority can
overtake one that was added a microsecond before it. -/
theorem later_overtakes :
    let adds (priority : Priority) (first second third fourth : Instant) : List Operation :=
      [.enqueue "q" "t" ⟨1⟩ [0x62] priority first second,
        .enqueue "q" "t" ⟨1⟩ [0x61] priority third fourth]
    let taken (operations : List Operation) : List Bytes :=
      takenRecords "q" ⟨1⟩ (standard.events .empty (operations ++ [.next "q", .next "q"]))
    let added (priority : Priority) (operations : List Operation) : List Bytes :=
      (standard.arrivalsOf "q" ⟨1⟩ priority operations).map Arrival.record
    let close := adds .normal
      ⟨1700000000, 1⟩ ⟨1700000000, 2⟩ ⟨1700000000, 3⟩ ⟨1700000000, 4⟩
    let far := adds .low
      ⟨4284967296, 6500⟩ ⟨4284967296, 7000⟩ ⟨4284967296, 7500⟩ ⟨4284967296, 8000⟩
    (taken close = (added .normal close).reverse ∧
        taken close ≠ added .normal close) ∧
      taken far = (added .low far).reverse ∧
        taken far ≠ added .low far := by
  decide +kernel

end Engine
end TenantQueue
