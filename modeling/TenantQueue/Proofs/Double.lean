import TenantQueue.Double.Basic

/-! Where what is no number stands among the deadlines. A sum is never one of the values that come
before all numbers, so no entry can hide those that are due behind it. -/
namespace TenantQueue.Double

/-- A number, or one of the values that come after all numbers. -/
def Timely (value : Double) : Prop := value.isNaN = true → value.negative = false

theorem nan_timely : nan.Timely := by
  intro _
  decide

theorem timely_of_le (value : Double) (small : value.magnitude ≤ infinityMagnitude) :
    value.Timely := by
  intro noNumber
  simp only [isNaN, decide_eq_true_eq] at noNumber
  omega

theorem magnitude_ofMagnitude (negative : Bool) (magnitude : Nat)
    (small : magnitude < 0x8000000000000000) :
    (ofMagnitude negative magnitude).magnitude = magnitude := by
  cases negative with
  | false => simp only [Double.magnitude, ofMagnitude, Bool.false_eq_true, if_false,
      UInt64.toNat_ofNat']; omega
  | true => simp only [Double.magnitude, ofMagnitude, if_true, UInt64.toNat_ofNat']; omega

theorem ofSteps_timely (negative : Bool) (numerator denominator : Nat) :
    (ofSteps negative numerator denominator).Timely := by
  have bounded : nearestMagnitude numerator denominator ≤ infinityMagnitude := Nat.min_le_left _ _
  have small : infinityMagnitude < 0x8000000000000000 := by decide
  apply timely_of_le
  rw [ofSteps, magnitude_ofMagnitude _ _ (Nat.lt_of_le_of_lt bounded small)]
  exact bounded

theorem timely_of_isInfinite (value : Double) (infinite : value.isInfinite = true) :
    value.Timely := by
  apply timely_of_le
  exact Nat.le_of_eq (beq_iff_eq.mp infinite)

theorem add_timely (first second : Double) : (first.add second).Timely := by
  unfold add
  split
  · exact nan_timely
  · split
    · rename_i infinite
      split
      · exact nan_timely
      · exact timely_of_isInfinite first infinite
    · split
      · rename_i infinite
        exact timely_of_isInfinite second infinite
      · exact ofSteps_timely _ _ _

/-- What stands before a deadline that has come has come too. -/
theorem le_of_rank_le {first second now : Double} (timely : first.Timely)
    (order : first.rank ≤ second.rank) (due : second.le now = true) : first.le now = true := by
  have bound := first.bits.toNat_lt
  have secondBound := second.bits.toNat_lt
  simp only [le, Bool.and_eq_true, Bool.or_eq_true, Bool.not_eq_true', isNaN, isZero,
    decide_eq_false_iff_not, decide_eq_true_eq, beq_iff_eq] at due ⊢
  simp only [Timely, isNaN, decide_eq_true_eq] at timely
  obtain ⟨⟨number, nowNumber⟩, before⟩ := due
  have firstNumber : ¬infinityMagnitude < first.magnitude := by
    intro noNumber
    have positive := timely noNumber
    simp only [rank, positive, Bool.false_eq_true, if_false] at order
    split at order <;> omega
  refine ⟨⟨firstNumber, nowNumber⟩, ?_⟩
  rcases before with before | ⟨zero, nowZero⟩
  · exact Or.inl (Nat.le_trans order before)
  · by_cases early : first.rank ≤ now.rank
    · exact Or.inl early
    · right
      refine ⟨?_, nowZero⟩
      -- Between two zeros there is room for the positive one only.
      have low : 0x7fffffffffffffff ≤ now.rank := by
        unfold rank
        split <;> omega
      have high : second.rank ≤ 0x8000000000000000 := by
        unfold rank
        split <;> omega
      have between : first.rank = 0x8000000000000000 := by omega
      unfold rank at between
      split at between <;> omega

end TenantQueue.Double
