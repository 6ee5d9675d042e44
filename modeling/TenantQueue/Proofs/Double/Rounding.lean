import TenantQueue.Proofs.Double
import Mathlib.Algebra.Group.Int.Defs
import Mathlib.Algebra.Group.Nat.Defs

/-! How far a rounded number lies from the exact one. All is said in whole steps of two to the power
-1074: a quotient below two to the power 53 + n of them is rounded by half of two to the power n at
most, and a number of few enough digits not at all. Doubles stand in the order of their steps. -/
namespace TenantQueue.Double

variable {numerator denominator : Nat}

theorem roundHalfEven_near (numerator : Nat) (positive : 0 < denominator) :
    2 * (roundHalfEven numerator denominator * denominator) ≤ 2 * numerator + denominator ∧
      2 * numerator ≤ 2 * (roundHalfEven numerator denominator * denominator) + denominator := by
  have whole := Nat.div_add_mod numerator denominator
  have rest := Nat.mod_lt numerator positive
  have up : (numerator / denominator + 1) * denominator =
      denominator * (numerator / denominator) + denominator := by
    rw [Nat.succ_mul, Nat.mul_comm]
  unfold roundHalfEven
  dsimp only
  split
  · rw [Nat.mul_comm _ denominator]
    omega
  · split
    · omega
    · obtain even | odd := Nat.mod_two_eq_zero_or_one (numerator / denominator)
      · rw [even, Nat.add_zero, Nat.mul_comm _ denominator]
        omega
      · rw [odd]
        omega

theorem roundHalfEven_bounds (numerator denominator : Nat) :
    numerator / denominator ≤ roundHalfEven numerator denominator ∧
      roundHalfEven numerator denominator ≤ numerator / denominator + 1 := by
  unfold roundHalfEven
  dsimp only
  split
  · omega
  · split
    · omega
    · omega

theorem roundHalfEven_mul (quotient : Nat) (positive : 0 < denominator) :
    roundHalfEven (quotient * denominator) denominator = quotient := by
  unfold roundHalfEven
  dsimp only
  rw [Nat.mul_mod_left, Nat.mul_div_cancel _ positive, Nat.mul_zero, if_pos positive]

theorem stepsOfMagnitude_shifted (shift digits : Nat) (few : digits ≤ 2 ^ 53)
    (full : shift = 0 ∨ 2 ^ 52 ≤ digits) :
    stepsOfMagnitude (shift * 0x10000000000000 + digits) = digits * 2 ^ shift := by
  unfold stepsOfMagnitude
  dsimp only [Nat.pow_eq]
  by_cases small : digits < 0x10000000000000
  · have none : shift = 0 := by omega
    subst none
    rw [if_pos (by omega), Nat.mod_eq_of_lt (by omega)]
    omega
  · by_cases carries : digits = 2 ^ 53
    · subst carries
      have exponent : (shift * 0x10000000000000 + 2 ^ 53) / 0x10000000000000 = shift + 2 := by omega
      have fraction : (shift * 0x10000000000000 + 2 ^ 53) % 0x10000000000000 = 0 := by omega
      have twice : 2 ^ (shift + 1) = 2 * 2 ^ shift := by rw [Nat.pow_succ, Nat.mul_comm]
      rw [exponent, fraction, if_neg (by omega), Nat.add_zero, Nat.add_sub_cancel (n := shift + 1) (m := 1),
        twice]
      omega
    · have exponent : (shift * 0x10000000000000 + digits) / 0x10000000000000 = shift + 1 := by omega
      have fraction : (shift * 0x10000000000000 + digits) % 0x10000000000000 =
          digits - 0x10000000000000 := by omega
      have whole : 0x10000000000000 + (digits - 0x10000000000000) = digits := by omega
      rw [exponent, fraction, if_neg (by omega), whole, Nat.add_sub_cancel]

def grain (numerator denominator : Nat) : Nat := (numerator / denominator).log2 - 52

def digits (numerator denominator : Nat) : Nat :=
  roundHalfEven numerator (denominator * 2 ^ grain numerator denominator)

theorem digits_bounds (numerator denominator : Nat) :
    digits numerator denominator ≤ 2 ^ 53 ∧
      (grain numerator denominator = 0 ∨ 2 ^ 52 ≤ digits numerator denominator) := by
  obtain ⟨above, below⟩ := roundHalfEven_bounds numerator (denominator * 2 ^ grain numerator denominator)
  change numerator / _ ≤ digits numerator denominator at above
  change digits numerator denominator ≤ numerator / _ + 1 at below
  rw [← Nat.div_div_eq_div_mul] at above below
  have width : (numerator / denominator).log2 - 52 = grain numerator denominator := rfl
  generalize numerator / denominator = quotient at above below width
  generalize grain numerator denominator = shift at above below width
  have upper : quotient < 2 ^ (quotient.log2 + 1) := Nat.lt_log2_self
  by_cases narrow : quotient.log2 ≤ 52
  · have none : shift = 0 := by omega
    have few : quotient < 2 ^ 53 :=
      Nat.lt_of_lt_of_le upper (Nat.pow_le_pow_right (by decide) (by omega))
    rw [none, Nat.pow_zero, Nat.div_one] at below
    exact ⟨by omega, Or.inl none⟩
  · have nonzero : quotient ≠ 0 := by
      rintro rfl
      exact narrow (by decide)
    have lower : 2 ^ quotient.log2 ≤ quotient := Nat.log2_self_le nonzero
    have low : 2 ^ 52 * 2 ^ shift = 2 ^ quotient.log2 := by
      rw [← Nat.pow_add]
      congr 1
      omega
    have high : 2 ^ 53 * 2 ^ shift = 2 ^ (quotient.log2 + 1) := by
      rw [← Nat.pow_add]
      congr 1
      omega
    have least : 2 ^ 52 ≤ quotient / 2 ^ shift :=
      (Nat.le_div_iff_mul_le (Nat.two_pow_pos shift)).mpr (low ▸ lower)
    have most : quotient / 2 ^ shift < 2 ^ 53 :=
      (Nat.div_lt_iff_lt_mul (Nat.two_pow_pos shift)).mpr (high ▸ upper)
    exact ⟨by omega, Or.inr (by omega)⟩

theorem grain_le {range : Nat} (positive : 0 < denominator)
    (fits : numerator < denominator * 2 ^ (53 + range)) : grain numerator denominator ≤ range := by
  have small : numerator / denominator < 2 ^ (53 + range) :=
    (Nat.div_lt_iff_lt_mul positive).mpr (by rwa [Nat.mul_comm] at fits)
  unfold grain
  by_cases zero : numerator / denominator = 0
  · rw [zero]
    exact Nat.zero_le range
  · have width := (Nat.log2_lt zero).mpr small
    omega

theorem negative_ofMagnitude (negative : Bool) (magnitude : Nat) (small : magnitude < 0x8000000000000000) :
    (ofMagnitude negative magnitude).negative = negative := by
  cases negative with
  | false =>
    simp only [Double.negative, ofMagnitude, Bool.false_eq_true, if_false, UInt64.toNat_ofNat',
      decide_eq_false_iff_not]
    omega
  | true =>
    simp only [Double.negative, ofMagnitude, if_true, UInt64.toNat_ofNat', decide_eq_true_eq]
    omega

theorem ofSteps_eq {range : Nat} (negative : Bool) (positive : 0 < denominator) (narrow : range ≤ 2000)
    (fits : numerator < denominator * 2 ^ (53 + range)) :
    (ofSteps negative numerator denominator).negative = negative ∧
      (ofSteps negative numerator denominator).isFinite = true ∧
      stepsOfMagnitude (ofSteps negative numerator denominator).magnitude =
        digits numerator denominator * 2 ^ grain numerator denominator := by
  obtain ⟨few, full⟩ := digits_bounds numerator denominator
  have shift := grain_le positive fits
  have stands := stepsOfMagnitude_shifted _ _ few full
  have nearest : nearestMagnitude numerator denominator =
      grain numerator denominator * 0x10000000000000 + digits numerator denominator := by
    have finite : grain numerator denominator * 0x10000000000000 + digits numerator denominator ≤
        infinityMagnitude := by
      unfold infinityMagnitude
      omega
    exact Nat.min_eq_right finite
  have below : nearestMagnitude numerator denominator < infinityMagnitude := by
    rw [nearest]
    unfold infinityMagnitude
    omega
  have bounded : nearestMagnitude numerator denominator < 0x8000000000000000 :=
    Nat.lt_trans below (by decide)
  have whole : (ofSteps negative numerator denominator).magnitude =
      nearestMagnitude numerator denominator := magnitude_ofMagnitude negative _ bounded
  refine ⟨?_, ?_, ?_⟩
  · exact negative_ofMagnitude negative _ bounded
  · rw [isFinite, whole, decide_eq_true below]
  · rw [whole, nearest, stands]

/-- Rounding moves a quotient by half a grain at most. -/
theorem ofSteps_near {range : Nat} (negative : Bool) (positive : 0 < denominator) (narrow : range ≤ 2000)
    (fits : numerator < denominator * 2 ^ (53 + range)) :
    2 * (stepsOfMagnitude (ofSteps negative numerator denominator).magnitude * denominator) ≤
        2 * numerator + denominator * 2 ^ range ∧
      2 * numerator ≤
        2 * (stepsOfMagnitude (ofSteps negative numerator denominator).magnitude * denominator) +
          denominator * 2 ^ range := by
  obtain ⟨-, -, steps⟩ := ofSteps_eq negative positive narrow fits
  have shift : 2 ^ grain numerator denominator ≤ 2 ^ range :=
    Nat.pow_le_pow_right (by decide) (grain_le positive fits)
  have width : denominator * 2 ^ grain numerator denominator ≤ denominator * 2 ^ range :=
    Nat.mul_le_mul_left denominator shift
  obtain ⟨above, below⟩ := roundHalfEven_near numerator
    (Nat.mul_pos positive (Nat.two_pow_pos (grain numerator denominator)))
  have whole : digits numerator denominator * 2 ^ grain numerator denominator * denominator =
      digits numerator denominator * (denominator * 2 ^ grain numerator denominator) := by
    rw [Nat.mul_assoc, Nat.mul_comm _ denominator]
  change 2 * (digits numerator denominator * _) ≤ _ at above
  change _ ≤ 2 * (digits numerator denominator * _) + _ at below
  rw [steps, whole]
  omega

theorem ofSteps_exact {count : Nat} (negative : Bool) (places : Nat) (few : count < 2 ^ 53)
    (narrow : places ≤ 2000) :
    stepsOfMagnitude (ofSteps negative (count * 2 ^ places) 1).magnitude = count * 2 ^ places := by
  have fits : count * 2 ^ places < 1 * 2 ^ (53 + places) := by
    rw [Nat.one_mul, Nat.pow_add]
    exact Nat.mul_lt_mul_of_pos_right few (Nat.two_pow_pos places)
  obtain ⟨-, -, steps⟩ := ofSteps_eq negative Nat.one_pos narrow fits
  have shift := grain_le Nat.one_pos fits
  obtain ⟨rest, split⟩ := Nat.exists_eq_add_of_le shift
  have multiple : count * 2 ^ places =
      count * 2 ^ rest * (1 * 2 ^ grain (count * 2 ^ places) 1) := by
    conv => lhs; rw [split]
    rw [Nat.one_mul, Nat.pow_add, Nat.mul_assoc, Nat.mul_comm (2 ^ rest)]
  have quotient : digits (count * 2 ^ places) 1 = count * 2 ^ rest := by
    have rounded := roundHalfEven_mul (count * 2 ^ rest)
      (Nat.mul_pos Nat.one_pos (Nat.two_pow_pos (grain (count * 2 ^ places) 1)))
    rwa [← multiple] at rounded
  rw [Nat.one_mul] at multiple
  rw [steps, quotient]
  exact multiple.symm

def signed (negative : Bool) (size : Nat) : Int := if negative then -(size : Int) else size

theorem signed_natAbs (negative : Bool) (value : Int)
    (sign : value ≠ 0 → negative = decide (value < 0)) :
    signed negative value.natAbs = value := by
  unfold signed
  by_cases zero : value = 0
  · rw [zero, Int.natAbs_zero]
    split
    · rfl
    · rfl
  · simp only [sign zero, decide_eq_true_eq]
    split
    · omega
    · omega

theorem steps_eq (value : Double) :
    value.steps = signed value.negative (stepsOfMagnitude value.magnitude) := rfl

theorem steps_ofSteps_near {range : Nat} (negative : Bool) (positive : 0 < denominator)
    (narrow : range ≤ 2000) (fits : numerator < denominator * 2 ^ (53 + range)) :
    (ofSteps negative numerator denominator).isFinite = true ∧
      2 * ((ofSteps negative numerator denominator).steps * denominator) ≤
        2 * signed negative numerator + denominator * 2 ^ range ∧
      2 * signed negative numerator ≤
        2 * ((ofSteps negative numerator denominator).steps * denominator) + denominator * 2 ^ range := by
  obtain ⟨sign, finite, -⟩ := ofSteps_eq negative positive narrow fits
  obtain ⟨above, below⟩ := ofSteps_near negative positive narrow fits
  refine ⟨finite, ?_⟩
  rw [steps_eq, sign]
  generalize stepsOfMagnitude (ofSteps negative numerator denominator).magnitude = size at above below
  have width : ((denominator * 2 ^ range : Nat) : Int) = denominator * 2 ^ range := by
    push_cast
    rfl
  rw [← width]
  generalize denominator * 2 ^ range = most at above below
  have product : ((size * denominator : Nat) : Int) = (size : Int) * denominator := Int.natCast_mul _ _
  cases negative with
  | true =>
    simp only [signed, if_true, Int.neg_mul, ← product]
    omega
  | false =>
    simp only [signed, Bool.false_eq_true, if_false, ← product]
    omega

theorem stepsOfMagnitude_mono {first second : Nat} (order : first ≤ second) :
    stepsOfMagnitude first ≤ stepsOfMagnitude second := by
  unfold stepsOfMagnitude
  dsimp only [Nat.pow_eq]
  have exponents : first / 0x10000000000000 ≤ second / 0x10000000000000 := Nat.div_le_div_right order
  have fraction := Nat.mod_lt first (y := 0x10000000000000) (by decide)
  obtain same | less := Nat.eq_or_lt_of_le exponents
  · have fractions : first % 0x10000000000000 ≤ second % 0x10000000000000 := by omega
    rw [same]
    split
    · exact fractions
    · exact Nat.mul_le_mul_right _ (Nat.add_le_add_left fractions _)
  · have second_pos : second / 0x10000000000000 ≠ 0 := by omega
    rw [if_neg second_pos]
    split
    · have unit := Nat.two_pow_pos (second / 0x10000000000000 - 1)
      calc first % 0x10000000000000 ≤ 0x10000000000000 * 1 := by omega
        _ ≤ (0x10000000000000 + second % 0x10000000000000) * 2 ^ (second / 0x10000000000000 - 1) :=
          Nat.mul_le_mul (Nat.le_add_right _ _) unit
    · rename_i first_pos
      have twice : 2 * 2 ^ (first / 0x10000000000000 - 1) = 2 ^ (first / 0x10000000000000) := by
        rw [Nat.mul_comm, ← Nat.pow_succ]
        congr 1
        omega
      have powers : 2 ^ (first / 0x10000000000000) ≤ 2 ^ (second / 0x10000000000000 - 1) :=
        Nat.pow_le_pow_right (by decide) (by omega)
      calc (0x10000000000000 + first % 0x10000000000000) * 2 ^ (first / 0x10000000000000 - 1)
          ≤ (0x10000000000000 * 2) * 2 ^ (first / 0x10000000000000 - 1) :=
            Nat.mul_le_mul_right _ (by omega)
        _ = 0x10000000000000 * 2 ^ (first / 0x10000000000000) := by rw [Nat.mul_assoc, twice]
        _ ≤ (0x10000000000000 + second % 0x10000000000000) * 2 ^ (second / 0x10000000000000 - 1) :=
            Nat.mul_le_mul (Nat.le_add_right _ _) powers

theorem magnitude_lt (value : Double) : value.magnitude < 0x8000000000000000 :=
  Nat.mod_lt _ (by decide)

/-- Doubles stand in the order of their steps. -/
theorem compare_of_steps_lt {first second : Double} (less : first.steps < second.steps) :
    compare first second = .lt := by
  have firstBound := first.magnitude_lt
  have secondBound := second.magnitude_lt
  have firstMono : first.magnitude ≤ second.magnitude →
      stepsOfMagnitude first.magnitude ≤ stepsOfMagnitude second.magnitude := stepsOfMagnitude_mono
  have secondMono : second.magnitude ≤ first.magnitude →
      stepsOfMagnitude second.magnitude ≤ stepsOfMagnitude first.magnitude := stepsOfMagnitude_mono
  change compare first.rank second.rank = .lt
  rw [Nat.compare_eq_lt]
  unfold steps at less
  unfold rank
  dsimp only at less
  cases firstSign : first.negative with
  | true =>
    cases secondSign : second.negative with
    | true =>
      simp only [firstSign, secondSign, if_true] at less ⊢
      omega
    | false =>
      simp only [if_true, Bool.false_eq_true, if_false]
      omega
  | false =>
    cases secondSign : second.negative with
    | true =>
      simp only [firstSign, secondSign, if_true, Bool.false_eq_true, if_false] at less
      omega
    | false =>
      simp only [firstSign, secondSign, Bool.false_eq_true, if_false] at less ⊢
      omega

end TenantQueue.Double
