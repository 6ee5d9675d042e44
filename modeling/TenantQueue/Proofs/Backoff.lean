import Mathlib.Algebra.Group.Nat.Defs
import TenantQueue.Config

/-! The wait before a redelivery, compared with its exact value: the base, doubled for each error after
the first, but no more than the greatest wait. The two agree as long as the factor fits 32 bits. Beyond
that the wait is the greatest one, which is too long if the greatest wait is more than two to the power 32
times the base. -/
namespace TenantQueue

/-- A span whose whole seconds fit 64 bits. -/
def Duration.IsRepresentable (span : Duration) : Prop := span.nanoseconds ≤ Duration.greatest

instance (span : Duration) : Decidable span.IsRepresentable :=
  inferInstanceAs (Decidable (span.nanoseconds ≤ Duration.greatest))

namespace Config

/-- The nanoseconds of the wait, in natural numbers. No error counts as one. -/
def exactWait (config : Config) (errorCount : UInt32) : Nat :=
  min (config.backoffBase.nanoseconds * 2 ^ (max errorCount.toNat 1 - 1))
    config.backoffMax.nanoseconds

theorem exactWait_eq (config : Config) (errorCount : UInt32) :
    config.exactWait errorCount =
      min (config.backoffBase.nanoseconds * 2 ^ (errorCount.toNat - 1))
        config.backoffMax.nanoseconds := by
  have exponent : max errorCount.toNat 1 - 1 = errorCount.toNat - 1 := by omega
  rw [exactWait, exponent]

theorem backoff_of_factor (config : Config) (representable : config.backoffMax.IsRepresentable)
    (errorCount : UInt32) (few : errorCount.toNat ≤ 32) :
    (config.backoff errorCount).nanoseconds = config.exactWait errorCount := by
  have small : ¬32 ≤ errorCount.toNat - 1 := by omega
  rw [exactWait_eq]
  simp only [backoff, if_neg small, Duration.times?, Nat.pow_eq]
  by_cases within : config.backoffBase.nanoseconds * 2 ^ (errorCount.toNat - 1) ≤ Duration.greatest
  · rw [if_pos within]
    rfl
  -- A product that is no span any more lies above the greatest wait, which is one.
  · have above : config.backoffMax.nanoseconds ≤
        config.backoffBase.nanoseconds * 2 ^ (errorCount.toNat - 1) := by
      have bound : config.backoffMax.nanoseconds ≤ Duration.greatest := representable
      omega
    rw [if_neg within, Nat.min_eq_right above]

theorem backoff_beyond_factor (config : Config) (errorCount : UInt32)
    (many : 32 < errorCount.toNat) : config.backoff errorCount = config.backoffMax := by
  have large : 32 ≤ errorCount.toNat - 1 := by omega
  simp only [backoff, if_pos large]

theorem backoff_exact_at_iff (config : Config) (representable : config.backoffMax.IsRepresentable)
    (errorCount : UInt32) :
    (config.backoff errorCount).nanoseconds = config.exactWait errorCount ↔
      errorCount.toNat ≤ 32 ∨ config.backoffMax.nanoseconds ≤
        config.backoffBase.nanoseconds * 2 ^ (errorCount.toNat - 1) := by
  by_cases few : errorCount.toNat ≤ 32
  · exact iff_of_true (config.backoff_of_factor representable errorCount few) (Or.inl few)
  · rw [config.backoff_beyond_factor errorCount (Nat.lt_of_not_le few), exactWait_eq]
    constructor
    · intro same
      right
      omega
    · intro exact
      have reached := exact.resolve_left few
      rw [Nat.min_eq_right reached]

theorem le_doubled (config : Config) (errorCount : UInt32) (many : 32 < errorCount.toNat)
    (bounded : config.backoffMax.nanoseconds ≤ config.backoffBase.nanoseconds * 2 ^ 32) :
    config.backoffMax.nanoseconds ≤
      config.backoffBase.nanoseconds * 2 ^ (errorCount.toNat - 1) := by
  have exponent : 32 ≤ errorCount.toNat - 1 := by omega
  calc config.backoffMax.nanoseconds
      ≤ config.backoffBase.nanoseconds * 2 ^ 32 := bounded
    _ ≤ config.backoffBase.nanoseconds * 2 ^ (errorCount.toNat - 1) :=
        Nat.mul_le_mul_left _ (Nat.pow_le_pow_right (by decide) exponent)

/-- The wait is the exact one up to 32 errors, and after more of them exactly if doubling has reached the
greatest wait by then; otherwise it is the greatest wait all the same, which is longer. So the whole
schedule is exact for those configurations whose greatest wait is at most two to the power 32 times
the base, and for no others. -/
theorem backoff_exact_iff (config : Config) (representable : config.backoffMax.IsRepresentable) :
    (∀ errorCount, (config.backoff errorCount).nanoseconds = config.exactWait errorCount ↔
      errorCount.toNat ≤ 32 ∨ config.backoffMax.nanoseconds ≤
        config.backoffBase.nanoseconds * 2 ^ (errorCount.toNat - 1)) ∧
      (∀ errorCount, (config.backoff errorCount).nanoseconds ≠ config.exactWait errorCount →
        config.backoff errorCount = config.backoffMax ∧
          config.exactWait errorCount < config.backoffMax.nanoseconds) ∧
      ((∀ errorCount, (config.backoff errorCount).nanoseconds = config.exactWait errorCount) ↔
        config.backoffMax.nanoseconds ≤ config.backoffBase.nanoseconds * 2 ^ 32) := by
  refine ⟨config.backoff_exact_at_iff representable, ?_, ?_⟩
  · intro errorCount differ
    have many : 32 < errorCount.toNat := by
      apply Nat.lt_of_not_le
      intro few
      exact differ (config.backoff_of_factor representable errorCount few)
    have longest := config.backoff_beyond_factor errorCount many
    have bound : config.exactWait errorCount ≤ config.backoffMax.nanoseconds := Nat.min_le_right _ _
    rw [longest] at differ
    exact ⟨longest, Nat.lt_of_le_of_ne bound differ.symm⟩
  · constructor
    · intro all
      have first := (config.backoff_exact_at_iff representable 33).mp (all 33)
      exact first.resolve_left (by decide)
    · intro bounded errorCount
      apply (config.backoff_exact_at_iff representable errorCount).mpr
      by_cases few : errorCount.toNat ≤ 32
      · exact Or.inl few
      · exact Or.inr (config.le_doubled errorCount (Nat.lt_of_not_le few) bounded)

def patient : Config :=
  ⟨standardPrefix, 512 * 1024, Duration.ofMilliseconds 1, Duration.ofSeconds 8640000⟩

theorem backoff_exact_iff_patient :
    patient.backoffMax.IsRepresentable ∧
      (patient.backoff 32).nanoseconds = patient.exactWait 32 ∧
      ¬∀ errorCount, (patient.backoff errorCount).nanoseconds = patient.exactWait errorCount := by
  have representable : patient.backoffMax.IsRepresentable := by decide
  obtain ⟨each, _, all⟩ := backoff_exact_iff patient representable
  have early : (patient.backoff 32).nanoseconds = patient.exactWait 32 :=
    (each 32).mpr (Or.inl (by decide))
  exact ⟨representable, early, fun exact => absurd (all.mp exact) (by decide)⟩

/-- After 33 errors the wait should be 49 days and is a hundred. -/
theorem patient_backoff_not_exact :
    patient.validate = .ok () ∧ patient.backoffBase.IsRepresentable ∧
      patient.backoffMax.IsRepresentable ∧
      patient.exactWait 33 = 4294967296000000 ∧
      (patient.backoff 33).nanoseconds = 8640000000000000 := by
  have accepted : patient.validate = .ok () := rfl
  exact ⟨accepted, by decide, by decide, by decide, by decide⟩

end Config
end TenantQueue
