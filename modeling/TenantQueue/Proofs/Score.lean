import TenantQueue.Priority
import TenantQueue.Proofs.Double.Rounding
import TenantQueue.Proofs.Order
import Mathlib.Algebra.Order.Field.Rat
import Mathlib.Tactic.Ring
import Mathlib.Tactic.Linarith

/-! Scores as exact numbers, and how far the doubles keep their order. The doubles round twice, to less
than a microsecond as long as the seconds have 32 bits, so scores that are a microsecond apart stay in
order for a hundred and thirty years around the epoch. -/
namespace TenantQueue

def exactMicroseconds (time : Instant) (priority : Priority) : Int :=
  time.microseconds + priority.seconds * 1000000

def exactScore (time : Instant) (priority : Priority) : ℚ :=
  (time.microseconds : ℚ) / 1000000 + priority.seconds

/-- So near to the epoch that the seconds of a score have 32 bits, whatever the priority. -/
def Instant.Near (time : Instant) : Prop :=
  time.microseconds.natAbs < (2 ^ 32 - 10000000) * 1000000

instance (time : Instant) : Decidable time.Near := by
  unfold Instant.Near
  infer_instance

namespace Double

theorem not_isNaN_of_isFinite {value : Double} (finite : value.isFinite = true) :
    value.isNaN = false := by
  simp only [isFinite, isNaN, decide_eq_true_eq, decide_eq_false_iff_not] at finite ⊢
  omega

theorem not_isInfinite_of_isFinite {value : Double} (finite : value.isFinite = true) :
    value.isInfinite = false := by
  simp only [isFinite, isInfinite, decide_eq_true_eq, beq_eq_false_iff_ne] at finite ⊢
  omega

/-- The last place of doubles with seconds of 32 bits is half a grain of two to the power -20. -/
theorem stepsPerUnit_eq : ∃ range ≤ 1979, stepsPerUnit = 2 ^ 21 * 2 ^ range :=
  ⟨1053, by decide, by decide +kernel⟩

theorem ofInt_exact {value : Int} (few : value.natAbs < 2 ^ 53) :
    (ofInt value).isFinite = true ∧ (ofInt value).steps = value * stepsPerUnit := by
  obtain ⟨range, narrow, unit⟩ := stepsPerUnit_eq
  rw [← Nat.pow_add] at unit
  have fits : value.natAbs * stepsPerUnit < 1 * 2 ^ (53 + (21 + range)) := by
    rw [Nat.one_mul, Nat.pow_add, unit]
    exact Nat.mul_lt_mul_of_pos_right few (Nat.two_pow_pos _)
  obtain ⟨sign, finite, -⟩ := ofSteps_eq (decide (value < 0)) Nat.one_pos (by omega) fits
  have size := ofSteps_exact (decide (value < 0)) (21 + range) few (by omega)
  rw [← unit] at size
  refine ⟨finite, ?_⟩
  change (ofSteps (decide (value < 0)) (value.natAbs * stepsPerUnit) 1).steps = _
  rw [steps_eq, sign, size]
  have whole := signed_natAbs (decide (value < 0)) value fun _ => rfl
  unfold signed at whole ⊢
  rw [Int.natCast_mul, ← Int.neg_mul, ← ite_mul, whole]

/-- A sum is off its exact value by a quarter of the grain at most, if it has so many places. -/
theorem add_near {first second : Double} {range : Nat} (narrow : range ≤ 2000)
    (finite : first.isFinite = true) (finiteToo : second.isFinite = true)
    (fits : (first.steps + second.steps).natAbs < 2 ^ (53 + range)) :
    2 * (first.add second).steps ≤ 2 * (first.steps + second.steps) + 2 ^ range ∧
      2 * (first.steps + second.steps) ≤ 2 * (first.add second).steps + 2 ^ range := by
  have sum : first.add second =
      ofSteps (if first.steps + second.steps = 0 then first.negative && second.negative
        else decide (first.steps + second.steps < 0)) (first.steps + second.steps).natAbs 1 := by
    unfold add
    simp [not_isNaN_of_isFinite, not_isInfinite_of_isFinite, finite, finiteToo]
  rw [sum]
  generalize first.steps + second.steps = total at fits
  generalize sign : (if total = 0 then first.negative && second.negative else decide (total < 0)) = negative
  have near := steps_ofSteps_near negative Nat.one_pos narrow (by rwa [Nat.one_mul])
  have whole := signed_natAbs negative total fun nonzero => by rw [← sign, if_neg nonzero]
  rw [whole] at near
  simpa using near.2

theorem natAbs_steps (value : Double) : value.steps.natAbs = stepsOfMagnitude value.magnitude := by
  rw [steps_eq, signed]
  split
  · exact Int.natAbs_neg _
  · rfl

/-- A quotient is off its exact value by a quarter of the grain at most, if it has so many places. -/
theorem divNat_near {value : Double} {divisor range : Nat} (positive : 0 < divisor)
    (narrow : range ≤ 2000) (finite : value.isFinite = true)
    (fits : value.steps.natAbs < divisor * 2 ^ (53 + range)) :
    (value.divNat divisor).isFinite = true ∧
      2 * ((value.divNat divisor).steps * divisor) ≤ 2 * value.steps + divisor * 2 ^ range ∧
      2 * value.steps ≤ 2 * ((value.divNat divisor).steps * divisor) + divisor * 2 ^ range := by
  rw [natAbs_steps] at fits
  rw [divNat, if_pos finite, steps_eq value]
  exact steps_ofSteps_near value.negative positive narrow fits

end Double

variable {time : Instant} {priority : Priority}

theorem Priority.offset_exact (priority : Priority) :
    priority.offset.isFinite = true ∧
      priority.offset.steps = priority.seconds * Double.stepsPerUnit := by
  apply Double.ofInt_exact
  cases priority <;> decide

theorem Instant.epochSeconds_near {range : Nat} (narrow : range ≤ 1979)
    (unit : Double.stepsPerUnit = 2 ^ 21 * 2 ^ range)
    (near : time.microseconds.natAbs < 2 ^ 32 * 1000000) :
    time.epochSeconds.isFinite = true ∧
      2 * (time.epochSeconds.steps * 1000000) ≤
        2 * (time.microseconds * (2 ^ 21 * 2 ^ range)) + 1000000 * 2 ^ range ∧
      2 * (time.microseconds * (2 ^ 21 * 2 ^ range)) ≤
        2 * (time.epochSeconds.steps * 1000000) + 1000000 * 2 ^ range := by
  have few : time.microseconds.natAbs < 2 ^ 53 := by omega
  obtain ⟨finite, steps⟩ := Double.ofInt_exact few
  rw [unit] at steps
  have fits : (Double.ofInt time.microseconds).steps.natAbs < 1000000 * 2 ^ (53 + range) := by
    have size : (Double.ofInt time.microseconds).steps.natAbs =
        time.microseconds.natAbs * 2 ^ 21 * 2 ^ range := by
      rw [steps, Int.natAbs_mul, Int.natAbs_natCast, Nat.mul_assoc]
    have bound : time.microseconds.natAbs * 2 ^ 21 < 1000000 * 2 ^ 53 := by omega
    rw [size, Nat.pow_add, ← Nat.mul_assoc]
    exact Nat.mul_lt_mul_of_pos_right bound (Nat.two_pow_pos range)
  have quotient := Double.divNat_near (show 0 < 1000000 by decide) (by omega) finite fits
  rw [steps] at quotient
  simpa [Instant.epochSeconds] using quotient

theorem exactMicroseconds_bounds (near : time.Near) (priority : Priority) :
    -(2 ^ 32 * 1000000 - 1) ≤ exactMicroseconds time priority ∧
      exactMicroseconds time priority ≤ 2 ^ 32 * 1000000 - 1 := by
  unfold Instant.Near at near
  have seconds : -10000000 ≤ priority.seconds ∧ priority.seconds ≤ 10000000 := by
    cases priority <;> decide
  unfold exactMicroseconds
  omega

/-- A score lies less than half a microsecond from its exact value. -/
theorem score_near (time : Instant) (priority : Priority) {range : Nat} (narrow : range ≤ 1979)
    (unit : Double.stepsPerUnit = 2 ^ 21 * 2 ^ range) (near : time.Near) :
    (score time priority).steps * 1000000 ≤
        exactMicroseconds time priority * (2 ^ 21 * 2 ^ range) + 1000000 * 2 ^ range ∧
      exactMicroseconds time priority * (2 ^ 21 * 2 ^ range) ≤
        (score time priority).steps * 1000000 + 1000000 * 2 ^ range := by
  have within : time.microseconds.natAbs < 2 ^ 32 * 1000000 := by
    unfold Instant.Near at near
    omega
  obtain ⟨finite, above, below⟩ := Instant.epochSeconds_near narrow unit within
  obtain ⟨offsetFinite, offset⟩ := priority.offset_exact
  rw [unit] at offset
  push_cast at offset
  have grain : (0 : Int) < 2 ^ range := Int.pow_pos (by decide)
  have sum : (time.epochSeconds.steps + priority.offset.steps) * 1000000 =
      time.epochSeconds.steps * 1000000 + priority.seconds * 1000000 * (2 ^ 21 * 2 ^ range) := by
    rw [offset]
    ring
  have moved : exactMicroseconds time priority * (2 ^ 21 * 2 ^ range) =
      time.microseconds * (2 ^ 21 * 2 ^ range) + priority.seconds * 1000000 * (2 ^ 21 * 2 ^ range) := by
    rw [exactMicroseconds]
    ring
  obtain ⟨low, high⟩ := exactMicroseconds_bounds near priority
  have most := Int.mul_le_mul_of_nonneg_right high grain.le
  have least := Int.mul_le_mul_of_nonneg_right low grain.le
  have width : ((2 ^ (53 + range) : Nat) : Int) = 2 ^ 53 * 2 ^ range := by
    rw [Nat.pow_add, Int.natCast_mul, Int.natCast_pow, Int.natCast_pow]
    rfl
  have scaled : exactMicroseconds time priority * (2 ^ 21 * 2 ^ range) =
      2 ^ 21 * (exactMicroseconds time priority * 2 ^ range) := by
    ring
  have fits : (time.epochSeconds.steps + priority.offset.steps).natAbs < 2 ^ (53 + range) := by
    apply Int.ofNat_lt.mp
    rw [width]
    omega
  obtain ⟨sumAbove, sumBelow⟩ := Double.add_near (by omega) finite offsetFinite fits
  unfold score
  constructor
  · omega
  · omega

theorem exactScore_eq (time : Instant) (priority : Priority) :
    exactScore time priority = (exactMicroseconds time priority : ℚ) / 1000000 := by
  rw [exactScore, exactMicroseconds]
  push_cast
  ring

theorem exactScore_lt_iff {otherTime : Instant} {otherPriority : Priority} :
    exactScore time priority < exactScore otherTime otherPriority ↔
      exactMicroseconds time priority < exactMicroseconds otherTime otherPriority := by
  rw [exactScore_eq, exactScore_eq, div_lt_div_iff_of_pos_right (by norm_num), Int.cast_lt]

theorem exactScore_eq_iff {otherTime : Instant} {otherPriority : Priority} :
    exactScore time priority = exactScore otherTime otherPriority ↔
      exactMicroseconds time priority = exactMicroseconds otherTime otherPriority := by
  rw [exactScore_eq, exactScore_eq, div_left_inj' (by norm_num), Int.cast_inj]

/-- Scores that are a microsecond apart keep their order. -/
theorem score_lt {otherTime : Instant} {otherPriority : Priority} (near : time.Near)
    (otherNear : otherTime.Near)
    (less : exactMicroseconds time priority < exactMicroseconds otherTime otherPriority) :
    compare (score time priority) (score otherTime otherPriority) = .lt := by
  obtain ⟨range, narrow, unit⟩ := Double.stepsPerUnit_eq
  have grain : (0 : Int) < 2 ^ range := Int.pow_pos (by decide)
  have above := (score_near time priority narrow unit near).1
  have below := (score_near otherTime otherPriority narrow unit otherNear).2
  have apart : (exactMicroseconds time priority + 1) * (2 ^ 21 * 2 ^ range) ≤
      exactMicroseconds otherTime otherPriority * (2 ^ 21 * 2 ^ range) :=
    Int.mul_le_mul_of_nonneg_right less (by omega)
  rw [Int.add_mul, Int.one_mul] at apart
  apply Double.compare_of_steps_lt
  omega

/-- Of a time, only the microsecond enters its score. -/
theorem score_congr {otherTime : Instant} (same : time.microseconds = otherTime.microseconds) :
    score time priority = score otherTime priority := by
  rw [score, score, Instant.epochSeconds, Instant.epochSeconds, same]

end TenantQueue
