import TenantQueue.Proofs.Queue.Isolation

/-! The sequence in which records leave a pending set. Records that are entered in rising order of score
and record leave in the order in which they were entered, whatever else is entered and whenever a
record is taken. -/
namespace TenantQueue

namespace ScoredSet
variable {σ μ : Type} [Ord σ] [Ord μ] [Std.LawfulEqOrd σ] [Std.LawfulEqOrd μ]
  [Std.TransOrd σ] [Std.TransOrd μ]

theorem Sorted.eq_of_mem_iff {first second : List (σ × μ)} (sorted : Sorted first)
    (also : Sorted second) (same : ∀ entry, entry ∈ first ↔ entry ∈ second) : first = second := by
  have permuted := (List.perm_ext_iff_of_nodup sorted.nodup also.nodup).mpr same
  refine permuted.eq_of_pairwise ?_ sorted also
  intro one other _ _ before after
  have turned := Std.OrientedCmp.gt_of_lt before
  rw [after] at turned
  contradiction

section
variable {α : Type}

def upTo (entry : α → σ × μ) (first second : α) : Bool :=
  (precedence (entry first) (entry second)).isLE

theorem exists_sorted (entry : α → σ × μ) (items : List α)
    (distinct : (items.map fun item => (entry item).2).Nodup) :
    ∃ line : List α, line.Perm items ∧ Sorted (line.map entry) := by
  have total (first second : α) : (upTo entry first second || upTo entry second first) = true := by
    rw [Bool.or_eq_true, upTo, upTo]
    cases order : precedence (entry first) (entry second) with
    | lt => exact Or.inl rfl
    | eq => exact Or.inl rfl
    | gt => exact Or.inr (by rw [Std.OrientedCmp.lt_of_gt order]; rfl)
  have ascending := List.pairwise_mergeSort (fun _ _ _ => Std.TransCmp.isLE_trans) total items
  have permuted := List.mergeSort_perm items (upTo entry)
  have apart := (permuted.map fun item => (entry item).2).nodup_iff.mpr distinct
  refine ⟨items.mergeSort (upTo entry), permuted, List.pairwise_map.mpr ?_⟩
  refine (ascending.and (List.pairwise_map.mp apart)).imp ?_
  rintro first second ⟨before, differ⟩
  rw [upTo] at before
  cases order : precedence (entry first) (entry second) with
  | lt => rfl
  | eq => exact absurd (congrArg Prod.snd (Std.LawfulEqCmp.eq_of_compare order)) differ
  | gt =>
    rw [order] at before
    contradiction

end

variable [DecidableEq μ] {chosen : μ → Bool} {set : ScoredSet σ μ}

theorem insertAll_inStep (set : ScoredSet σ μ) (entries : List (μ × σ)) (inStep : set.InStep) :
    (set.insertAll entries).InStep := by
  induction entries generalizing set with
  | nil => exact inStep
  | cons entry rest ih => exact ih _ (insert_inStep set entry.1 entry.2 inStep)

/-- What is entered into an empty set stands in it in order, whatever the order of entering. -/
theorem ordered_insertAll_empty {α : Type} {entry : α → σ × μ} {items line : List α}
    (distinct : (items.map fun item => (entry item).2).Nodup) (permuted : line.Perm items)
    (sorted : Sorted (line.map entry)) :
    ((empty : ScoredSet σ μ).insertAll (items.map fun item => (entry item).swap)).ordered =
      line.map entry := by
  have members : ((items.map fun item => (entry item).swap).map Prod.fst).Nodup := by
    rw [List.map_map]
    exact distinct
  refine (insertAll_inStep empty _ empty_inStep).sorted.eq_of_mem_iff sorted ?_
  rintro ⟨score, member⟩
  rw [(insertAll_inStep empty _ empty_inStep).agree, score?_insertAll_iff _ _ _ _ members, score?_empty,
    ← (permuted.map fun item => (entry item).swap).mem_iff]
  simp [Prod.swap_eq_iff_eq_swap]

omit [Ord σ] [Ord μ] [Std.LawfulEqOrd σ] [Std.LawfulEqOrd μ] [Std.TransOrd σ] [Std.TransOrd μ]
  [DecidableEq μ] in
def selected (set : ScoredSet σ μ) (chosen : μ → Bool) : List (σ × μ) :=
  set.ordered.filter fun entry => chosen entry.2

omit [Std.LawfulEqOrd σ] [Std.LawfulEqOrd μ] [Std.TransOrd σ] [Std.TransOrd μ] in
theorem mem_selected (inStep : set.InStep) (score : σ) (member : μ) :
    (score, member) ∈ set.selected chosen ↔ set.score? member = some score ∧ chosen member = true := by
  rw [selected, List.mem_filter, inStep.agree]

omit [Std.LawfulEqOrd σ] [Std.LawfulEqOrd μ] [Std.TransOrd σ] [Std.TransOrd μ] in
theorem selected_sorted (inStep : set.InStep) : Sorted (set.selected chosen) :=
  inStep.sorted.sublist List.filter_sublist

theorem selected_insert_other (inStep : set.InStep) {member : μ} (score : σ)
    (other : chosen member = false) :
    (set.insert member score).selected chosen = set.selected chosen := by
  have inserted := insert_inStep set member score inStep
  refine (selected_sorted inserted).eq_of_mem_iff (selected_sorted inStep) ?_
  rintro ⟨entryScore, entry⟩
  rw [mem_selected inserted, mem_selected inStep, score?_insert]
  by_cases same : member = entry
  · rw [← same, other]
    simp
  · rw [if_neg same]

/-- A new member that comes after all that are chosen stands behind them. -/
theorem selected_insert_last (inStep : set.InStep) {member : μ} {score : σ}
    (one : chosen member = true) (absent : set.score? member = none)
    (last : Sorted (set.selected chosen ++ [(score, member)])) :
    (set.insert member score).selected chosen = set.selected chosen ++ [(score, member)] := by
  have inserted := insert_inStep set member score inStep
  refine (selected_sorted inserted).eq_of_mem_iff last ?_
  rintro ⟨entryScore, entry⟩
  rw [mem_selected inserted, List.mem_append, mem_selected inStep, score?_insert]
  by_cases same : member = entry
  · subst same
    simp [one, absent, eq_comm]
  · simp [same, Ne.symm same]

omit [Ord σ] [Ord μ] [Std.LawfulEqOrd σ] [Std.LawfulEqOrd μ] [Std.TransOrd σ] [Std.TransOrd μ] in
theorem selected_popFirst? (chosen : μ → Bool) {rest : ScoredSet σ μ} {member : μ}
    (popped : set.popFirst? = some (member, rest)) :
    (set.selected chosen).map Prod.snd =
        [member].filter chosen ++ (rest.selected chosen).map Prod.snd ∧
      ∃ before, set.selected chosen = before ++ rest.selected chosen := by
  unfold popFirst? at popped
  split at popped
  · contradiction
  · rename_i score first others ordered
    obtain ⟨rfl, rfl⟩ := Prod.mk.inj (Option.some.inj popped)
    unfold selected
    rw [ordered, List.filter_cons]
    cases one : chosen first with
    | true => exact ⟨by simp [one], [(score, first)], rfl⟩
    | false => exact ⟨by simp [one], [], rfl⟩

end ScoredSet

namespace Sight

def entry? : Sight → Option (Double × Bytes)
  | pushed record score => some (score, record)
  | served => none

def entered (chosen : Bytes → Bool) (sights : List Sight) : List (Double × Bytes) :=
  (sights.filterMap entry?).filter fun entry => chosen entry.2

variable {chosen : Bytes → Bool}

theorem entered_pushed (record : Bytes) (score : Double) (later : List Sight) :
    entered chosen (pushed record score :: later) =
      if chosen record then (score, record) :: entered chosen later else entered chosen later := by
  rw [entered, List.filterMap_cons_some (show entry? (pushed record score) = _ from rfl),
    List.filter_cons]
  rfl

/-- Chosen records that are entered in rising order are a line: what has left it and what is still in
it make up the whole of it. -/
theorem replay_in_order (set : ScoredSet Double Bytes) (inStep : set.InStep) (sights : List Sight)
    (rising : ScoredSet.Sorted (set.selected chosen ++ entered chosen sights))
    (distinct : ((set.selected chosen ++ entered chosen sights).map Prod.snd).Nodup) :
    (replay set sights).1.filter chosen ++ ((replay set sights).2.selected chosen).map Prod.snd =
      (set.selected chosen ++ entered chosen sights).map Prod.snd := by
  -- What is chosen now and what is still to come is one sorted list all along: a push moves its middle,
  -- and a serving takes its head.
  induction sights generalizing set with
  | nil => simp [replay, entered]
  | cons sight later ih =>
    cases sight with
    | pushed record score =>
      have inserted := ScoredSet.insert_inStep set record score inStep
      rw [entered_pushed] at rising distinct ⊢
      cases one : chosen record with
      | true =>
        rw [one, if_pos rfl, List.append_cons] at rising distinct
        rw [if_pos rfl, List.append_cons]
        have front := List.Pairwise.sublist (List.sublist_append_left _ _) rising
        have absent : set.score? record = none := by
          refine Option.eq_none_iff_forall_ne_some.mpr fun old present => ?_
          have waiting := (ScoredSet.mem_selected inStep old record).mpr ⟨present, one⟩
          rw [List.map_append, List.map_append, List.nodup_append', List.nodup_append'] at distinct
          exact distinct.1.2.2 (List.mem_map_of_mem waiting) List.mem_cons_self
        have behind := ScoredSet.selected_insert_last inStep one absent front
        rw [← behind] at rising distinct ⊢
        exact ih _ inserted rising distinct
      | false =>
        have unmoved := ScoredSet.selected_insert_other inStep score one
        rw [one, if_neg Bool.false_ne_true, ← unmoved] at rising distinct
        rw [if_neg Bool.false_ne_true, ← unmoved]
        exact ih _ inserted rising distinct
    | served =>
      have same : entered chosen (served :: later) = entered chosen later := rfl
      rw [same] at rising distinct ⊢
      rw [replay]
      cases popped : set.popFirst? with
      | none => exact ih set inStep rising distinct
      | some pair =>
        obtain ⟨record, rest⟩ := pair
        have left := (ScoredSet.popFirst?_eq_some set rest record inStep popped).1
        have still : rest.InStep := left ▸ ScoredSet.erase_inStep set record inStep
        obtain ⟨records, before, split⟩ := ScoredSet.selected_popFirst? chosen popped
        have shorter := List.sublist_append_right before (rest.selected chosen ++ entered chosen later)
        rw [← List.append_assoc, ← split] at shorter
        have others := ih rest still (List.Pairwise.sublist shorter rising)
          (List.Nodup.sublist (shorter.map Prod.snd) distinct)
        rw [List.map_append, records, List.append_assoc, ← List.map_append, ← others,
          ← List.append_assoc, ← List.filter_append]
        rfl

/-- What nothing is taken from holds all that is entered. -/
theorem replay_untouched (set : ScoredSet Double Bytes) (sights : List Sight)
    (untouched : (replay set sights).1 = []) :
    (replay set sights).2 = set.insertAll ((sights.filterMap entry?).map Prod.swap) := by
  induction sights generalizing set with
  | nil => rfl
  | cons sight later ih =>
    cases sight with
    | pushed record score => exact ih _ untouched
    | served =>
      rw [replay] at untouched ⊢
      cases popped : set.popFirst? with
      | none =>
        rw [popped] at untouched
        exact ih set untouched
      | some pair =>
        rw [popped] at untouched
        contradiction

end Sight

def Call.entry? (queue : String) (tenant : Tenant) : Call → Option (Double × Bytes)
  | push place owner record score =>
    if place = queue ∧ owner = tenant then some (score, record) else none
  | _ => none

def entriesFor (queue : String) (tenant : Tenant) (calls : List Call) : List (Double × Bytes) :=
  calls.filterMap (Call.entry? queue tenant)

theorem entriesFor_append (queue : String) (tenant : Tenant) (first second : List Call) :
    entriesFor queue tenant (first ++ second) =
      entriesFor queue tenant first ++ entriesFor queue tenant second :=
  List.filterMap_append

namespace MemoryStore
variable {queue : String} {tenant : Tenant}

private theorem entry?_of_perform (store : MemoryStore) (call : Call) :
    (Sight.ofEvent? queue tenant ⟨call, (store.perform call).1⟩).bind Sight.entry? =
      call.entry? queue tenant := by
  cases call with
  | push place owner record score =>
    unfold perform Sight.ofEvent? Call.entry?
    dsimp only
    split
    · rfl
    · rfl
  | pop place =>
    cases (store.perform (.pop place)).1 with
    | error failure => rfl
    | ok outcome =>
      cases outcome with
      | popped owner record =>
        unfold Sight.ofEvent? Call.entry?
        dsimp only
        split
        · rfl
        · rfl
      | empty => rfl
      | drained owner => rfl
  | _ => rfl

theorem filterMap_sights (store : MemoryStore) (calls : List Call) :
    (sights queue tenant (store.eventsFrom calls)).filterMap Sight.entry? =
      entriesFor queue tenant calls := by
  induction calls generalizing store with
  | nil => rfl
  | cons call rest ih =>
    simp only [sights, List.filterMap_filterMap, entriesFor] at ih ⊢
    rw [eventsFrom, List.filterMap_cons, List.filterMap_cons, entry?_of_perform, ih]

/-- A tenant's chosen records leave the queue in the order in which they are entered, if that is
the order of their scores, and of the records themselves where scores are equal. -/
theorem taken_in_order (queue : String) (tenant : Tenant) (store : MemoryStore) (sound : store.Sound)
    (calls : List Call) (chosen : Bytes → Bool)
    (rising : ScoredSet.Sorted (((store.queue queue).pendingOf tenant).selected chosen ++
      (entriesFor queue tenant calls).filter fun entry => chosen entry.2))
    (distinct : ((((store.queue queue).pendingOf tenant).selected chosen ++
      (entriesFor queue tenant calls).filter fun entry => chosen entry.2).map Prod.snd).Nodup) :
    (takenRecords queue tenant (store.eventsFrom calls)).filter chosen ++
        ((((store.performAll calls).queue queue).pendingOf tenant).selected chosen).map Prod.snd =
      (((store.queue queue).pendingOf tenant).selected chosen ++
        (entriesFor queue tenant calls).filter fun entry => chosen entry.2).map Prod.snd := by
  have replayed := replay_eventsFrom store calls queue tenant sound
  rw [← filterMap_sights store calls] at rising distinct ⊢
  have line := Sight.replay_in_order _ ((sound queue).pendingInStep tenant)
    (sights queue tenant (store.eventsFrom calls)) rising distinct
  rw [replayed] at line
  exact line

theorem pendingOf_untouched (store : MemoryStore) (sound : store.Sound) (calls : List Call)
    (untouched : takenRecords queue tenant (store.eventsFrom calls) = []) :
    ((store.performAll calls).queue queue).pendingOf tenant =
      ((store.queue queue).pendingOf tenant).insertAll
        ((entriesFor queue tenant calls).map Prod.swap) := by
  have replayed := replay_eventsFrom store calls queue tenant sound
  have whole := Sight.replay_untouched ((store.queue queue).pendingOf tenant)
    (sights queue tenant (store.eventsFrom calls)) (by rw [replayed]; exact untouched)
  rw [replayed, filterMap_sights] at whole
  exact whole

end MemoryStore
end TenantQueue
