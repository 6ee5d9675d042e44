import TenantQueue.Engine.Durable
import TenantQueue.Proofs.Program

/-! The operations of the engine log what they do, and give no other notices. -/
namespace TenantQueue.Engine
open Program

section
variable {Allowed : Notice → Prop} (logs : ∀ severity text, Allowed (.log severity text))
include logs

theorem notes_enqueueAt (engine : Engine) (queue : String) (tenant : Tenant) (task : Task) (time : Instant)
    (priority : Priority) : (engine.enqueueAt queue tenant task time priority).Notes Allowed :=
  notes_bind _ _ (notes_ofExcept _) fun _ => notes_bind _ _ (notes_perform _) fun _ => notes_log _ _ (logs _ _)

theorem notes_releaseSlot (queue : String) (tenant : Tenant) :
    (releaseSlot queue tenant).Notes Allowed := by
  refine notes_bind _ _ (notes_attempt _ (notes_perform _)) fun result => ?_
  cases result with
  | ok value => trivial
  | error failure => exact notes_log _ _ (logs _ _)

theorem notes_next (queue : String) : (next queue).Notes Allowed := by
  refine ⟨fun tenant => logs _ _, fun reply => ?_⟩
  cases reply with
  | error failure => trivial
  | ok found =>
    cases found with
    | none => trivial
    | some pair =>
      refine notes_bind _ _ ?_ fun _ => trivial
      unfold readPopped
      split
      · trivial
      · exact notes_bind _ _ (notes_releaseSlot logs queue pair.1) fun _ => trivial

omit logs in
theorem notes_dropEntry (queue : String) (tenant : Tenant) (fingerprint : Fingerprint) :
    (dropEntry queue tenant fingerprint).Notes Allowed :=
  notes_bind _ _ (notes_perform _) fun _ => notes_perform _

theorem notes_storedTask (queue : String) (tenant : Tenant) (fingerprint : Fingerprint) :
    (storedTask queue tenant fingerprint).Notes Allowed := by
  refine notes_bind _ _ (notes_perform _) fun record => ?_
  cases record with
  | none => exact notes_bind _ _ (notes_log _ _ (logs _ _)) fun _ => trivial
  | some record =>
    dsimp only
    split
    · trivial
    · exact notes_bind _ _ (notes_log _ _ (logs _ _)) fun _ => trivial

theorem notes_requeue (engine : Engine) (queue : String) (tenant : Tenant) (task : Task) (now : Instant) :
    (engine.requeue queue tenant task now).Notes Allowed := by
  unfold requeue
  dsimp only
  split
  · trivial
  · exact notes_bind _ _ (notes_enqueueAt logs engine queue tenant _ _ _) fun _ =>
      notes_bind _ _ (notes_perform _) fun _ => notes_log _ _ (logs _ _)

theorem notes_requeueEntry (engine : Engine) (queue : String) (tenant : Tenant) (now : Instant)
    (fingerprint : Fingerprint) : (engine.requeueEntry queue tenant now fingerprint).Notes Allowed := by
  refine notes_bind _ _ (notes_storedTask logs queue tenant fingerprint) fun task => ?_
  have drops : (dropEntry queue tenant fingerprint).Notes Allowed :=
    notes_dropEntry queue tenant fingerprint
  cases task with
  | none => exact notes_bind _ _ drops fun _ => trivial
  | some task =>
    exact notes_bind _ _ (notes_requeue logs engine queue tenant task now) fun _ =>
      notes_bind _ _ drops fun _ => trivial

omit logs in
theorem notes_total {α : Type} (work : α → Program Nat) (members : List α)
    (each : ∀ member, (work member).Notes Allowed) : (total work members).Notes Allowed := by
  induction members with
  | nil => trivial
  | cons first rest ih =>
    exact notes_bind _ _ (each first) fun _ => notes_bind _ _ ih fun _ => trivial

theorem notes_requeueExpired (engine : Engine) (queue : String) (now : Instant) :
    (engine.requeueExpired queue now).Notes Allowed := by
  refine notes_bind _ _ (notes_perform _) fun registered => notes_total _ _ fun entry => ?_
  refine notes_bind _ _ (notes_perform _) fun expired => notes_total _ _ fun fingerprint => ?_
  exact notes_requeueEntry logs engine queue entry.1 now fingerprint

end
end TenantQueue.Engine
