import TenantQueue.Proofs.Order

/-! The two indexes of a scored set stay in step: the list holds exactly the members with their
scores, strictly by score and then by member. So a set is known by the scores of its members, and
its first member is the least. -/
namespace TenantQueue.ScoredSet
variable {σ μ : Type} [Ord σ] [Ord μ]

def Sorted (entries : List (σ × μ)) : Prop :=
  entries.Pairwise fun first second => precedence first second = .lt

section
variable [Std.LawfulEqOrd σ] [Std.LawfulEqOrd μ]

theorem Sorted.nodup {entries : List (σ × μ)} (sorted : Sorted entries) : entries.Nodup := by
  refine sorted.imp ?_
  rintro first second before rfl
  have same : precedence first first = .eq := Std.ReflCmp.compare_self
  rw [same] at before
  contradiction

theorem mem_displace (entry other : σ × μ) (entries : List (σ × μ)) :
    other ∈ displace entry entries ↔ other ∈ entries ∧ other ≠ entry := by
  have differ : (precedence entry other != .eq) = true ↔ other ≠ entry := by
    rw [bne_iff_ne, ne_eq, Std.LawfulEqCmp.compare_eq_iff_eq]
    exact not_congr eq_comm
  rw [displace, List.mem_filter, differ]

theorem mem_place (entry other : σ × μ) (entries : List (σ × μ)) :
    other ∈ place entry entries ↔ other = entry ∨ other ∈ entries := by
  induction entries with
  | nil => simp [place]
  | cons first rest ih =>
    cases order : precedence entry first with
    | lt => simp [place, order]
    | eq =>
      have same : entry = first := Std.LawfulEqCmp.eq_of_compare order
      simp only [place, order]
      simp [same]
    | gt => simp [place, order, ih, or_left_comm]

end

theorem sorted_displace (entry : σ × μ) (entries : List (σ × μ)) (sorted : Sorted entries) :
    Sorted (displace entry entries) :=
  List.Pairwise.sublist List.filter_sublist sorted

section
variable [Std.TransOrd σ] [Std.TransOrd μ] [Std.LawfulEqOrd σ] [Std.LawfulEqOrd μ]

theorem sorted_place (entry : σ × μ) (entries : List (σ × μ)) (sorted : Sorted entries) :
    Sorted (place entry entries) := by
  induction entries with
  | nil => exact List.pairwise_singleton _ _
  | cons first rest ih =>
    obtain ⟨least, tail⟩ := List.pairwise_cons.mp sorted
    cases order : precedence entry first with
    | lt =>
      simp only [place, order]
      refine List.pairwise_cons.mpr ⟨?_, sorted⟩
      intro other member
      rcases List.mem_cons.mp member with rfl | inside
      · exact order
      · exact Std.TransCmp.lt_trans order (least other inside)
    | eq => simpa only [place, order] using sorted
    | gt =>
      simp only [place, order]
      refine List.pairwise_cons.mpr ⟨?_, ih tail⟩
      intro other member
      rcases (mem_place entry other rest).mp member with rfl | inside
      · exact Std.OrientedCmp.lt_of_gt order
      · exact least other inside

omit [Std.TransOrd σ] [Std.TransOrd μ] in
theorem displace_head (entry : σ × μ) (entries : List (σ × μ)) (sorted : Sorted (entry :: entries)) :
    displace entry (entry :: entries) = entries := by
  obtain ⟨least, _⟩ := List.pairwise_cons.mp sorted
  simp only [displace, List.filter_cons, Std.ReflCmp.compare_self, bne_self_eq_false,
    Bool.false_eq_true, if_false]
  apply List.filter_eq_self.mpr
  intro other member
  simp [least other member]

end

section
variable [Std.LawfulEqOrd σ] [Std.LawfulEqOrd μ]

theorem displace_of_not_mem (entry : σ × μ) (entries : List (σ × μ)) (absent : entry ∉ entries) :
    displace entry entries = entries := by
  refine List.filter_eq_self.mpr fun other listed => ?_
  rw [bne_iff_ne, ne_eq, Std.LawfulEqCmp.compare_eq_iff_eq]
  rintro rfl
  exact absent listed

theorem displace_place (entry : σ × μ) (entries : List (σ × μ)) (absent : entry ∉ entries) :
    displace entry (place entry entries) = entries := by
  induction entries with
  | nil => simp [place, displace]
  | cons first rest ih =>
    cases order : precedence entry first with
    | lt =>
      have others := displace_of_not_mem entry (first :: rest) absent
      simp only [place, order]
      simpa [displace] using others
    | eq =>
      obtain rfl : entry = first := Std.LawfulEqCmp.eq_of_compare order
      exact absurd List.mem_cons_self absent
    | gt =>
      have others := ih fun listed => absent (List.mem_cons_of_mem _ listed)
      simp only [place, order]
      rw [displace, List.filter_cons_of_pos (by simp [order])]
      exact congrArg _ others

end

variable [DecidableEq μ]

structure InStep (set : ScoredSet σ μ) : Prop where
  distinct : set.scores.keys.Nodup
  sorted : Sorted set.ordered
  agree : ∀ member score, (score, member) ∈ set.ordered ↔ set.score? member = some score

/-- The entry of a member that comes before those of all others. -/
def IsFirst (set : ScoredSet σ μ) (score : σ) (member : μ) : Prop :=
  set.score? member = some score ∧
    ∀ otherScore other, set.score? other = some otherScore →
      (precedence (score, member) (otherScore, other)).isLE

omit [Ord σ] [Ord μ] in
@[simp] theorem score?_empty (member : μ) : (empty : ScoredSet σ μ).score? member = none := rfl

theorem empty_inStep : (empty : ScoredSet σ μ).InStep where
  distinct := List.nodup_nil
  sorted := List.Pairwise.nil
  agree member score := by
    rw [score?_empty]
    simp [empty]

@[simp] theorem score?_insert (set : ScoredSet σ μ) (member other : μ) (score : σ) :
    (set.insert member score).score? other =
      if member = other then some score else set.score? other :=
  Table.get?_set set.scores member other score

def insertAll (set : ScoredSet σ μ) (entries : List (μ × σ)) : ScoredSet σ μ :=
  entries.foldl (fun set entry => set.insert entry.1 entry.2) set

theorem score?_insertAll_of_not_mem (set : ScoredSet σ μ) (entries : List (μ × σ)) (member : μ)
    (absent : member ∉ entries.map Prod.fst) :
    (set.insertAll entries).score? member = set.score? member := by
  induction entries generalizing set with
  | nil => rfl
  | cons entry rest ih =>
    rw [List.map_cons, List.mem_cons, not_or] at absent
    change ((set.insert entry.1 entry.2).insertAll rest).score? member = _
    rw [ih _ absent.2, score?_insert, if_neg (Ne.symm absent.1)]

theorem score?_insertAll_of_mem (set : ScoredSet σ μ) (entries : List (μ × σ)) (member : μ)
    (score : σ) (distinct : (entries.map Prod.fst).Nodup) (listed : (member, score) ∈ entries) :
    (set.insertAll entries).score? member = some score := by
  induction entries generalizing set with
  | nil => exact absurd listed List.not_mem_nil
  | cons entry rest ih =>
    obtain ⟨fresh, tail⟩ := List.nodup_cons.mp distinct
    change ((set.insert entry.1 entry.2).insertAll rest).score? member = some score
    obtain rfl | later := List.mem_cons.mp listed
    · rw [score?_insertAll_of_not_mem _ rest member fresh, score?_insert, if_pos rfl]
    · exact ih _ tail later

theorem score?_insertAll_iff (set : ScoredSet σ μ) (entries : List (μ × σ)) (member : μ) (score : σ)
    (distinct : (entries.map Prod.fst).Nodup) :
    (set.insertAll entries).score? member = some score ↔
      (member, score) ∈ entries ∨
        (∀ other, (member, other) ∉ entries) ∧ set.score? member = some score := by
  by_cases entered : member ∈ entries.map Prod.fst
  · obtain ⟨⟨_, new⟩, listed, rfl⟩ := List.mem_map.mp entered
    have found := score?_insertAll_of_mem set entries _ new distinct listed
    constructor
    · intro same
      obtain rfl := Option.some.inj (found.symm.trans same)
      exact Or.inl listed
    · rintro (also | ⟨absent, -⟩)
      · exact score?_insertAll_of_mem set entries _ score distinct also
      · exact absurd listed (absent new)
  · rw [score?_insertAll_of_not_mem set entries member entered]
    have absent (other : σ) : (member, other) ∉ entries :=
      fun listed => entered (List.mem_map_of_mem listed)
    constructor
    · exact fun old => Or.inr ⟨absent, old⟩
    · rintro (listed | ⟨-, old⟩)
      · exact absurd listed (absent score)
      · exact old

theorem score?_insertIfNew (set : ScoredSet σ μ) (member other : μ) (score : σ) :
    (set.insertIfNew member score).2.score? other =
      if member = other then some ((set.score? member).getD score) else set.score? other := by
  unfold insertIfNew
  cases present : set.score? member with
  | none => simp
  | some old =>
    by_cases same : member = other
    · subst same
      simp [present]
    · simp [same]

@[simp] theorem score?_increase [Add σ] [OfNat σ 0] (set : ScoredSet σ μ) (member other : μ)
    (amount : σ) :
    (set.increase member amount).2.score? other =
      if member = other then some ((set.score? member).getD 0 + amount) else set.score? other := by
  simp [increase]

@[simp] theorem score?_erase (set : ScoredSet σ μ) (member other : μ) :
    (set.erase member).score? other = if member = other then none else set.score? other := by
  unfold erase
  cases present : set.score? member with
  | none =>
    by_cases same : member = other
    · subst same
      simp [present]
    · simp [same]
  | some old => exact Table.get?_erase set.scores member other

section
variable [Std.LawfulEqOrd σ] [Std.LawfulEqOrd μ]

theorem mem_others (set : ScoredSet σ μ) (inStep : set.InStep) (member other : μ) (score : σ) :
    (score, other) ∈ set.others member ↔ other ≠ member ∧ set.score? other = some score := by
  unfold others
  cases present : set.score? member with
  | none =>
    rw [inStep.agree]
    constructor
    · intro found
      refine ⟨?_, found⟩
      rintro rfl
      simp [present] at found
    · exact And.right
  | some old =>
    rw [mem_displace, inStep.agree]
    constructor
    · rintro ⟨found, differ⟩
      refine ⟨?_, found⟩
      rintro rfl
      rw [present, Option.some.injEq] at found
      exact differ (by rw [found])
    · rintro ⟨differ, found⟩
      exact ⟨found, fun same => differ (congrArg Prod.snd same)⟩

variable [Std.TransOrd σ] [Std.TransOrd μ]

theorem insert_inStep (set : ScoredSet σ μ) (member : μ) (score : σ) (inStep : set.InStep) :
    (set.insert member score).InStep where
  distinct := Table.keys_set_nodup set.scores member score inStep.distinct
  sorted := by
    apply sorted_place _ _
    unfold others
    split
    · exact sorted_displace _ _ inStep.sorted
    · exact inStep.sorted
  agree other otherScore := by
    rw [score?_insert]
    unfold insert
    rw [mem_place, mem_others set inStep, Prod.mk.injEq]
    by_cases same : member = other
    · subst same
      simp [eq_comm]
    · simp [same, Ne.symm same]

theorem insertIfNew_inStep (set : ScoredSet σ μ) (member : μ) (score : σ) (inStep : set.InStep) :
    (set.insertIfNew member score).2.InStep := by
  unfold insertIfNew
  split
  · exact inStep
  · exact insert_inStep set member score inStep

theorem increase_inStep [Add σ] [OfNat σ 0] (set : ScoredSet σ μ) (member : μ) (amount : σ)
    (inStep : set.InStep) : (set.increase member amount).2.InStep :=
  insert_inStep set member _ inStep

omit [Std.TransOrd σ] [Std.TransOrd μ] in
theorem erase_inStep (set : ScoredSet σ μ) (member : μ) (inStep : set.InStep) :
    (set.erase member).InStep := by
  cases present : set.score? member with
  | none => simpa only [erase, present] using inStep
  | some old =>
    have erased : set.erase member = ⟨set.scores.erase member, set.others member⟩ := by
      simp only [erase, others, present]
    have scores := score?_erase set member
    rw [erased] at scores ⊢
    exact {
      distinct := Table.keys_erase_nodup set.scores member inStep.distinct
      sorted := by
        simp only [others, present]
        exact sorted_displace _ _ inStep.sorted
      agree := by
        intro other score
        rw [scores, mem_others set inStep]
        by_cases same : member = other
        · simp [same]
        · simp [same, Ne.symm same] }

omit [Std.TransOrd σ] [Std.TransOrd μ] in
theorem erase_insert (set : ScoredSet σ μ) (member : μ) (score : σ) (inStep : set.InStep)
    (absent : set.score? member = none) : (set.insert member score).erase member = set := by
  have unlisted : (score, member) ∉ set.ordered := by
    rw [inStep.agree, absent]
    exact nofun
  have found : (set.insert member score).score? member = some score := by
    rw [score?_insert, if_pos rfl]
  have scores := Table.erase_set set.scores member score absent
  have ordered := displace_place (score, member) set.ordered unlisted
  simp only [erase, found]
  simp only [insert, others, absent, scores, ordered]

omit [Std.TransOrd σ] [Std.TransOrd μ] in
theorem popFirst?_eq_some (set rest : ScoredSet σ μ) (member : μ) (inStep : set.InStep)
    (popped : set.popFirst? = some (member, rest)) :
    rest = set.erase member ∧ ∃ score, set.IsFirst score member := by
  unfold popFirst? at popped
  split at popped
  · simp at popped
  · rename_i score first entries ordered
    simp only [Option.some.injEq, Prod.mk.injEq] at popped
    obtain ⟨rfl, rfl⟩ := popped
    have sorted := inStep.sorted
    rw [ordered] at sorted
    have found : set.score? first = some score := (inStep.agree first score).mp (by simp [ordered])
    constructor
    · unfold erase
      simp only [found]
      rw [ordered, displace_head _ _ sorted]
    · refine ⟨score, found, ?_⟩
      intro otherScore other present
      have listed := (inStep.agree other otherScore).mpr present
      rw [ordered, List.mem_cons] at listed
      rcases listed with same | inside
      · rw [same]
        exact Std.ReflCmp.isLE_rfl
      · have before := (List.pairwise_cons.mp sorted).1 _ inside
        simp [before]

end

theorem popFirst?_eq_none_iff (set : ScoredSet σ μ) (inStep : set.InStep) :
    set.popFirst? = none ↔ ∀ member, set.score? member = none := by
  unfold popFirst?
  constructor
  · intro none_popped member
    split at none_popped
    · rename_i ordered
      cases present : set.score? member with
      | none => rfl
      | some score =>
        have listed := (inStep.agree member score).mpr present
        simp [ordered] at listed
    · simp at none_popped
  · intro none_present
    split
    · rfl
    · rename_i score first entries ordered
      have found := (inStep.agree first score).mp (by simp [ordered])
      simp [none_present first] at found

section
variable [Std.LawfulEqOrd σ] [Std.LawfulEqOrd μ] [Std.TransOrd σ] [Std.TransOrd μ]

theorem IsFirst.popFirst? {set : ScoredSet σ μ} {score : σ} {member : μ} (inStep : set.InStep)
    (first : set.IsFirst score member) : set.popFirst? = some (member, set.erase member) := by
  cases taken : set.popFirst? with
  | none =>
    have absent := (popFirst?_eq_none_iff set inStep).mp taken member
    rw [first.1] at absent
    contradiction
  | some pair =>
    obtain ⟨other, rest⟩ := pair
    obtain ⟨erased, otherScore, otherFirst⟩ := popFirst?_eq_some set rest other inStep taken
    have ties : precedence (score, member) (otherScore, other) = .eq :=
      Std.OrientedCmp.isLE_antisymm (first.2 _ _ otherFirst.1) (otherFirst.2 _ _ first.1)
    have same : member = other := congrArg Prod.snd (Std.LawfulEqCmp.eq_of_compare ties)
    rw [erased, same]

theorem popFirst?_eq_some_iff (set rest : ScoredSet σ μ) (member : μ) (inStep : set.InStep) :
    set.popFirst? = some (member, rest) ↔
      (∃ score, set.IsFirst score member) ∧ rest = set.erase member := by
  constructor
  · exact fun popped => (popFirst?_eq_some set rest member inStep popped).symm
  · rintro ⟨⟨score, first⟩, rfl⟩
    exact first.popFirst? inStep

end

omit [Ord σ] [Ord μ] in
theorem isEmpty_iff (set : ScoredSet σ μ) : set.isEmpty = true ↔ ∀ member, set.score? member = none := by
  constructor
  · intro no_entries member
    unfold isEmpty at no_entries
    unfold score?
    rw [Table.get?_eq_none_iff, Table.keys, List.isEmpty_iff.mp no_entries]
    simp
  · intro none_present
    unfold isEmpty
    cases entries : set.scores.entries with
    | nil => rfl
    | cons entry rest =>
      have absent := (Table.get?_eq_none_iff set.scores entry.1).mp (none_present entry.1)
      simp [Table.keys, entries] at absent

theorem eq_empty_of_isEmpty (set : ScoredSet σ μ) (inStep : set.InStep)
    (none_left : set.isEmpty = true) : set = empty := by
  have absent := (isEmpty_iff set).mp none_left
  have entries : set.scores.entries = [] := List.isEmpty_iff.mp none_left
  have ordered : set.ordered = [] := by
    apply List.eq_nil_iff_forall_not_mem.mpr
    rintro ⟨score, member⟩ listed
    have found := (inStep.agree member score).mp listed
    simp [absent member] at found
  obtain ⟨⟨scores⟩, list⟩ := set
  simp only at entries ordered
  subst entries ordered
  rfl

section
variable [Std.LawfulEqOrd σ] [Std.LawfulEqOrd μ]

theorem members_nodup (set : ScoredSet σ μ) (inStep : set.InStep) : set.members.Nodup := by
  unfold members
  refine List.pairwise_map.mpr (inStep.sorted.imp_of_mem ?_)
  rintro ⟨firstScore, first⟩ ⟨secondScore, second⟩ firstListed secondListed before same
  dsimp only at same
  subst same
  have firstFound := (inStep.agree _ _).mp firstListed
  have secondFound := (inStep.agree _ _).mp secondListed
  rw [firstFound, Option.some.injEq] at secondFound
  subst secondFound
  have equal : precedence (firstScore, first) (firstScore, first) = .eq :=
    Std.ReflCmp.compare_self
  rw [equal] at before
  contradiction

omit [Std.LawfulEqOrd σ] [Std.LawfulEqOrd μ] in
theorem mem_members (set : ScoredSet σ μ) (inStep : set.InStep) (member : μ) :
    member ∈ set.members ↔ (set.score? member).isSome := by
  unfold members
  rw [List.mem_map, Option.isSome_iff_exists]
  constructor
  · rintro ⟨⟨score, listed⟩, inside, rfl⟩
    exact ⟨score, (inStep.agree listed score).mp inside⟩
  · rintro ⟨score, found⟩
    exact ⟨(score, member), (inStep.agree member score).mpr found, rfl⟩

theorem size_eq_length (set : ScoredSet σ μ) (inStep : set.InStep) :
    set.size = set.ordered.length := by
  have same : set.scores.keys.Perm set.members := by
    rw [List.perm_ext_iff_of_nodup inStep.distinct (members_nodup set inStep)]
    intro member
    rw [mem_members set inStep, score?, Option.isSome_iff_ne_none, ne_eq,
      Table.get?_eq_none_iff, Decidable.not_not]
  have lengths := same.length_eq
  simpa [Table.keys, members, size, Table.size] using lengths

theorem size_erase (set : ScoredSet σ μ) (member : μ) (score : σ) (inStep : set.InStep)
    (present : set.score? member = some score) : (set.erase member).size + 1 = set.size := by
  have erased := erase_inStep set member inStep
  have same : (member :: (set.erase member).members).Perm set.members := by
    refine (List.perm_ext_iff_of_nodup ?_ (members_nodup set inStep)).mpr ?_
    · refine List.nodup_cons.mpr ⟨?_, members_nodup _ erased⟩
      rw [mem_members _ erased]
      simp
    · intro other
      rw [List.mem_cons, mem_members _ erased, mem_members set inStep, score?_erase]
      by_cases equal : member = other
      · subst equal
        simp [present]
      · simp [equal, Ne.symm equal]
  have lengths := same.length_eq
  rw [size_eq_length set inStep, size_eq_length _ erased]
  simpa [members] using lengths

end

omit [DecidableEq μ] in
private theorem takeWhile_eq_filter (passes : σ → Bool) (entries : List (σ × μ))
    (sorted : Sorted entries)
    (closed : ∀ first ∈ entries, ∀ second ∈ entries, precedence first second = .lt →
      passes second.1 = true → passes first.1 = true) :
    (entries.takeWhile fun entry => passes entry.1) = entries.filter fun entry => passes entry.1 := by
  induction entries with
  | nil => rfl
  | cons entry rest ih =>
    obtain ⟨least, tail⟩ := List.pairwise_cons.mp sorted
    have same := ih tail fun first firstListed second secondListed =>
      closed first (List.mem_cons_of_mem _ firstListed) second (List.mem_cons_of_mem _ secondListed)
    cases pass : passes entry.1 with
    | true => simp only [List.takeWhile_cons, List.filter_cons, pass, if_true, same]
    | false =>
      have none_left : ∀ other ∈ rest, ¬passes other.1 = true := by
        intro other listed passed
        have earlier := closed entry (List.mem_cons_self ..) other (List.mem_cons_of_mem _ listed)
          (least other listed) passed
        rw [pass] at earlier
        contradiction
      simp only [List.takeWhile_cons, List.filter_cons, pass, Bool.false_eq_true, if_false]
      exact (List.filter_eq_nil_iff.mpr none_left).symm

theorem passes_of_mem_takeWhile (set : ScoredSet σ μ) (passes : σ → Bool) (member : μ)
    (inStep : set.InStep) (taken : member ∈ set.takeWhile passes) :
    ∃ score, set.score? member = some score ∧ passes score = true := by
  obtain ⟨⟨score, other⟩, listed, rfl⟩ := List.mem_map.mp taken
  have passed : (set.ordered.takeWhile fun entry => passes entry.1).all (fun entry => passes entry.1) =
      true := List.all_takeWhile
  exact ⟨score, (inStep.agree _ _).mp (List.takeWhile_subset _ listed),
    List.all_eq_true.mp passed _ listed⟩

theorem takeWhile_eq (set : ScoredSet σ μ) (passes : σ → Bool) (inStep : set.InStep)
    (closed : ∀ firstScore first secondScore second, set.score? first = some firstScore →
      set.score? second = some secondScore →
      precedence (firstScore, first) (secondScore, second) = .lt →
      passes secondScore = true → passes firstScore = true) :
    set.takeWhile passes = (set.ordered.filter fun entry => passes entry.1).map Prod.snd := by
  refine congrArg (List.map Prod.snd) (takeWhile_eq_filter passes set.ordered inStep.sorted ?_)
  rintro ⟨firstScore, first⟩ firstListed ⟨secondScore, second⟩ secondListed
  exact closed firstScore first secondScore second ((inStep.agree _ _).mp firstListed)
    ((inStep.agree _ _).mp secondListed)

theorem mem_takeWhile (set : ScoredSet σ μ) (passes : σ → Bool) (member : μ) (inStep : set.InStep)
    (closed : ∀ firstScore first secondScore second, set.score? first = some firstScore →
      set.score? second = some secondScore →
      precedence (firstScore, first) (secondScore, second) = .lt →
      passes secondScore = true → passes firstScore = true) :
    member ∈ set.takeWhile passes ↔
      ∃ score, set.score? member = some score ∧ passes score = true := by
  constructor
  · exact passes_of_mem_takeWhile set passes member inStep
  · rintro ⟨score, found, passed⟩
    rw [takeWhile_eq set passes inStep closed, List.mem_map]
    exact ⟨(score, member), List.mem_filter.mpr ⟨(inStep.agree _ _).mpr found, passed⟩, rfl⟩

theorem takeWhile_nodup [Std.LawfulEqOrd σ] [Std.LawfulEqOrd μ] (set : ScoredSet σ μ)
    (passes : σ → Bool) (inStep : set.InStep) : (set.takeWhile passes).Nodup :=
  (members_nodup set inStep).sublist ((List.takeWhile_sublist _).map Prod.snd)

end TenantQueue.ScoredSet
