import TenantQueue.Proofs.Double
import TenantQueue.Proofs.ScoredSet
import TenantQueue.Store.Memory
import Mathlib.Data.List.Induction
import Mathlib.Data.List.Nodup
import Mathlib.Data.Prod.Basic

/-! What changes make of an empty scored set, in any number and order. Each change edits the table of
scores and the list of entries apart, and finds an old entry of the list by the old score only. Both
hold the same entries after every change, so no entry stays behind and none is lost. -/
namespace TenantQueue.ScoredSet
variable {σ μ : Type}

inductive Change (σ μ : Type) where
  | insert (member : μ) (score : σ)
  | insertIfNew (member : μ) (score : σ)
  | increase (member : μ) (amount : σ)
  | erase (member : μ)
  | popFirst

variable [DecidableEq μ] [Ord σ] [Ord μ] [Add σ] [OfNat σ 0]

def Change.apply (set : ScoredSet σ μ) : Change σ μ → ScoredSet σ μ
  | .insert member score => set.insert member score
  | .insertIfNew member score => (set.insertIfNew member score).2
  | .increase member amount => (set.increase member amount).2
  | .erase member => set.erase member
  | .popFirst => (set.popFirst?.map Prod.snd).getD set

def ofChanges (changes : List (Change σ μ)) : ScoredSet σ μ :=
  changes.foldl Change.apply empty

/-- The table and the list of a set hold the same entries, and each operation treats them as one. -/
structure Coherent (set : ScoredSet σ μ) : Prop where
  entries : set.toList.Perm (set.scores.entries.map Prod.swap)
  found : ∀ member score, set.score? member = some score ↔ (score, member) ∈ set.toList
  distinct : set.members.Nodup
  size : set.size = set.toList.length
  sorted : Sorted set.toList
  inserted : ∀ member score entry, entry ∈ (set.insert member score).toList ↔
    entry = (score, member) ∨ entry.2 ≠ member ∧ entry ∈ set.toList
  insertedIfNew : ∀ member score, set.insertIfNew member score =
    if member ∈ set.members then (false, set) else (true, set.insert member score)
  increased : ∀ member amount old, (old, member) ∈ set.toList ∨ old = 0 ∧ member ∉ set.members →
    set.increase member amount = (old + amount, set.insert member (old + amount))
  erased : ∀ member entry, entry ∈ (set.erase member).toList ↔ entry.2 ≠ member ∧ entry ∈ set.toList
  popped : ∀ member rest, set.popFirst? = some (member, rest) ↔
    (∃ score, set.IsFirst score member) ∧ rest = set.erase member
  drained : set.popFirst? = none ↔ set.toList = []

section
variable [Std.LawfulEqOrd σ] [Std.LawfulEqOrd μ] [Std.TransOrd σ] [Std.TransOrd μ]

omit [Add σ] [OfNat σ 0] [Std.TransOrd σ] [Std.TransOrd μ] in
theorem ordered_perm_entries (set : ScoredSet σ μ) (inStep : set.InStep) :
    set.ordered.Perm (set.scores.entries.map Prod.swap) := by
  have distinct : set.scores.entries.Nodup := List.Nodup.of_map Prod.fst inStep.distinct
  refine (List.perm_ext_iff_of_nodup inStep.sorted.nodup (distinct.map Prod.swap_injective)).mpr ?_
  rintro ⟨score, member⟩
  rw [inStep.agree, score?, ← Table.mem_entries _ _ _ inStep.distinct]
  exact (List.mem_map_of_injective Prod.swap_injective (a := (member, score))).symm

theorem InStep.coherent {set : ScoredSet σ μ} (inStep : set.InStep) : set.Coherent where
  entries := ordered_perm_entries set inStep
  found := fun member score => (inStep.agree member score).symm
  distinct := members_nodup set inStep
  size := size_eq_length set inStep
  sorted := inStep.sorted
  inserted := by
    rintro member score ⟨otherScore, other⟩
    rw [toList, (insert_inStep set member score inStep).agree, score?_insert, toList, inStep.agree]
    by_cases same : member = other
    · simp [same, eq_comm]
    · simp [same, Ne.symm same]
  insertedIfNew := by
    intro member score
    simp only [insertIfNew, mem_members set inStep]
  increased := by
    rintro member amount old (listed | ⟨rfl, absent⟩)
    · rw [increase, (inStep.agree member old).mp listed, Option.getD_some]
    · rw [mem_members set inStep, Bool.not_eq_true, Option.isSome_eq_false_iff,
        Option.isNone_iff_eq_none] at absent
      rw [increase, absent, Option.getD_none]
  erased := by
    rintro member ⟨otherScore, other⟩
    rw [toList, (erase_inStep set member inStep).agree, score?_erase, toList, inStep.agree]
    by_cases same : member = other
    · simp [same]
    · simp [same, Ne.symm same]
  popped := fun member rest => popFirst?_eq_some_iff set rest member inStep
  drained := by
    unfold popFirst? toList
    cases set.ordered with
    | nil => simp
    | cons entry rest => simp

theorem apply_inStep (set : ScoredSet σ μ) (change : Change σ μ) (inStep : set.InStep) :
    (change.apply set).InStep := by
  cases change with
  | insert member score => exact insert_inStep set member score inStep
  | insertIfNew member score => exact insertIfNew_inStep set member score inStep
  | increase member amount => exact increase_inStep set member amount inStep
  | erase member => exact erase_inStep set member inStep
  | popFirst =>
    unfold Change.apply
    cases popped : set.popFirst? with
    | none => exact inStep
    | some taken =>
      have erased := (popFirst?_eq_some set taken.2 taken.1 inStep popped).1
      change taken.2.InStep
      rw [erased]
      exact erase_inStep set taken.1 inStep

theorem ofChanges_inStep (changes : List (Change σ μ)) : (ofChanges changes).InStep := by
  induction changes using List.reverseRecOn with
  | nil => exact empty_inStep
  | append_singleton earlier change ih =>
    have last : ofChanges (earlier ++ [change]) = change.apply (ofChanges earlier) := by
      rw [ofChanges, List.foldl_append]
      rfl
    rw [last]
    exact apply_inStep _ change ih

end

theorem takeWhile_le_eq (set : ScoredSet Double μ) (inStep : set.InStep)
    (numbers : ∀ entry ∈ set.toList, entry.1.isNaN = false) (limit : Double) :
    set.takeWhile (fun score => score.le limit) =
      (set.toList.filter fun entry => entry.1.le limit).map Prod.snd := by
  apply takeWhile_eq set _ inStep
  intro firstScore first secondScore second found _ before passed
  -- A score that is no number can stand in front of all numbers, where it would hide them.
  have number := numbers (firstScore, first) ((inStep.agree first firstScore).mpr found)
  have timely : firstScore.Timely := by
    intro noNumber
    rw [number] at noNumber
    contradiction
  exact Double.le_of_rank_le timely (rank_le_of_precedence before) passed

/-- After any changes the table and the list of a set hold the same entries, whatever the scores are.
If they are numbers, exactly the members with a score up to a limit are taken from the front. -/
theorem ofChanges_coherent [Std.LawfulEqOrd μ] [Std.TransOrd μ] (changes : List (Change Double μ)) :
    (ofChanges changes).Coherent ∧
    ((∀ entry ∈ (ofChanges changes).toList, entry.1.isNaN = false) →
      ∀ limit, (ofChanges changes).takeWhile (fun score => score.le limit) =
        ((ofChanges changes).toList.filter fun entry => entry.1.le limit).map Prod.snd) := by
  have inStep := ofChanges_inStep changes
  exact ⟨inStep.coherent, takeWhile_le_eq _ inStep⟩

def rescored : List (Change Double String) :=
  [.insert "x" (Double.ofNat 5), .insert "x" (Double.ofNat 1), .insertIfNew "x" (Double.ofNat 9),
    .insertIfNew "y" (Double.ofNat 9), .insert "w" Double.zero, .popFirst,
    .increase "x" (Double.ofNat 2)]

theorem ofChanges_coherent_rescored :
    (ofChanges rescored).Coherent ∧
    (∀ entry ∈ (ofChanges rescored).toList, entry.1.isNaN = false) ∧
    (ofChanges rescored).takeWhile (fun score => score.le (Double.ofNat 3)) = ["x"] := by
  obtain ⟨coherent, front⟩ := ofChanges_coherent rescored
  have numbers : ∀ entry ∈ (ofChanges rescored).toList, entry.1.isNaN = false := by
    decide +kernel
  refine ⟨coherent, numbers, ?_⟩
  rw [front numbers]
  decide +kernel

end TenantQueue.ScoredSet
