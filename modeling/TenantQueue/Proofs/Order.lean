import TenantQueue.ScoredSet
import TenantQueue.Task.Basic

/-! The orders by which sets and queues are kept are total, and only equal things compare as
equal. Doubles are told apart by their bits, so also the two zeros and what is no number. -/
namespace TenantQueue

theorem Double.rank_injective {first second : Double} (same : first.rank = second.rank) :
    first = second := by
  obtain ⟨⟨first⟩⟩ := first
  obtain ⟨⟨second⟩⟩ := second
  have firstBound := first.isLt
  have secondBound := second.isLt
  congr 2
  apply BitVec.eq_of_toNat_eq
  simp only [Double.rank, Double.negative, Double.magnitude, UInt64.toNat, decide_eq_true_eq] at same
  split at same <;> split at same <;> omega

instance : Std.TransOrd Double := inferInstanceAs (Std.TransCmp (compareOn Double.rank))

instance : Std.LawfulEqOrd Double where
  eq_of_compare same := Double.rank_injective (Std.LawfulEqOrd.eq_of_compare same)

instance : Std.TransOrd Fingerprint :=
  inferInstanceAs (Std.TransCmp (compareOn fun fingerprint : Fingerprint =>
    Bytes.ofText fingerprint.text))

instance : Std.LawfulEqOrd Fingerprint where
  eq_of_compare {first second} same := by
    have texts := Bytes.ofText_injective (Std.LawfulEqOrd.eq_of_compare same)
    cases first
    cases second
    exact congrArg Fingerprint.mk texts

namespace ScoredSet
variable {σ μ : Type} [Ord σ] [Ord μ]

instance [Std.TransOrd σ] [Std.TransOrd μ] : Std.TransCmp (precedence (σ := σ) (μ := μ)) :=
  inferInstanceAs (Std.TransCmp (compareLex (compareOn Prod.fst) (compareOn Prod.snd)))

instance [Std.LawfulEqOrd σ] [Std.LawfulEqOrd μ] :
    Std.LawfulEqCmp (precedence (σ := σ) (μ := μ)) where
  compare_self := by simp [precedence]
  eq_of_compare {first second} same := by
    simp only [precedence, Ordering.then_eq_eq] at same
    exact Prod.ext (Std.LawfulEqOrd.eq_of_compare same.1) (Std.LawfulEqOrd.eq_of_compare same.2)

theorem score_le_of_precedence {first second : Int × μ}
    (order : (precedence first second).isLE) : first.1 ≤ second.1 := by
  rw [← Std.LawfulOrderOrd.isLE_compare]
  cases scores : compare first.1 second.1 with
  | lt => rfl
  | eq => rfl
  | gt => simp [precedence, scores] at order

theorem rank_le_of_precedence {first second : Double × μ} (order : precedence first second = .lt) :
    first.1.rank ≤ second.1.rank := by
  apply Nat.le_of_not_lt
  intro above
  have greater : compare first.1 second.1 = .gt := Nat.compare_eq_gt.mpr above
  simp [precedence, greater] at order

end ScoredSet
end TenantQueue
