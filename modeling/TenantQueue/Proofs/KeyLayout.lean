import TenantQueue.KeyLayout
import TenantQueue.Proofs.Tenant

/-! Keys of a remote store never collide. The name of a queue may hold anything, braces, colons and
the words of the layout included, so a key is taken apart from its end: what stands behind the last
closing brace is put together from words, tenants and fingerprints only, and these hold no brace. -/
namespace TenantQueue

namespace Fingerprint

/-- The text of an entry's handle: none at all, or the digits of a digest. -/
def IsHandle (fingerprint : Fingerprint) : Prop :=
  fingerprint = empty ∨
    fingerprint.text.toList.length = 64 ∧
      ∀ digit ∈ fingerprint.text.toList, Bytes.isHexDigit digit = true

theorem isHandle_of (taskType : String) (tenant : Tenant) (payload : Bytes) :
    (of taskType tenant payload).IsHandle := by
  apply Or.inr
  constructor
  · rw [of, Bytes.length_hex, Digest.length_sha256]
  · intro digit member
    exact Bytes.isHexDigit_of_mem_hex member

theorem IsHandle.isHexDigit {fingerprint : Fingerprint} (handle : fingerprint.IsHandle) {digit : Char}
    (member : digit ∈ fingerprint.text.toList) : Bytes.isHexDigit digit = true := by
  obtain rfl | ⟨-, digits⟩ := handle
  · contradiction
  · exact digits digit member

structure Handle where
  fingerprint : Fingerprint
  isHandle : fingerprint.IsHandle

theorem Handle.eq_of_text {first second : Handle}
    (same : first.fingerprint.text = second.fingerprint.text) : first = second := by
  obtain ⟨⟨text⟩, isHandle⟩ := first
  obtain ⟨⟨other⟩, otherIsHandle⟩ := second
  obtain rfl : text = other := same
  rfl

end Fingerprint

namespace KeyLayout

inductive Purpose where
  | pending (tenant : Tenant)
  | active
  | processing (tenant : Tenant)
  | payload (handle : Fingerprint.Handle)

def key (layout : KeyLayout) (queue : String) : Purpose → String
  | .pending tenant => layout.pending queue tenant
  | .active => layout.active queue
  | .processing tenant => layout.processing queue tenant
  | .payload handle => layout.payload queue handle.fingerprint

namespace Purpose

def ending : Purpose → String
  | .pending tenant => ":pending:" ++ tenant.name
  | .active => ":active"
  | .processing tenant => ":processing:" ++ tenant.name
  | .payload handle => ":payload:" ++ handle.fingerprint.text

theorem ending_injective {first second : Purpose} (same : first.ending = second.ending) :
    first = second := by
  have texts := congrArg String.toList same
  cases first with
  | pending tenant =>
    cases second with
    | pending owner =>
      have names : tenant.name.toList = owner.name.toList := by simpa [ending] using texts
      rw [Tenant.name_injective (String.toList_inj.mp names)]
    | active | processing _ | payload _ => simp [ending] at texts
  | active =>
    cases second with
    | active => rfl
    | pending _ | processing _ | payload _ => simp [ending] at texts
  | processing tenant =>
    cases second with
    | processing owner =>
      have names : tenant.name.toList = owner.name.toList := by simpa [ending] using texts
      rw [Tenant.name_injective (String.toList_inj.mp names)]
    | pending _ | active | payload _ => simp [ending] at texts
  | payload handle =>
    cases second with
    | payload other =>
      have handles : handle.fingerprint.text.toList = other.fingerprint.text.toList := by
        simpa [ending] using texts
      rw [Fingerprint.Handle.eq_of_text (String.toList_inj.mp handles)]
    | pending _ | active | processing _ => simp [ending] at texts

theorem brace_not_mem_name (tenant : Tenant) : '\x7d' ∉ tenant.name.toList := by
  intro member
  obtain minus | digit := Tenant.mem_name member
  · contradiction
  · contradiction

theorem brace_not_mem_ending (purpose : Purpose) : '\x7d' ∉ purpose.ending.toList := by
  intro member
  cases purpose with
  | pending tenant => exact brace_not_mem_name tenant (by simpa [ending] using member)
  | active => simp [ending] at member
  | processing tenant => exact brace_not_mem_name tenant (by simpa [ending] using member)
  | payload handle =>
    have digit := handle.isHandle.isHexDigit (by simpa [ending] using member)
    contradiction

end Purpose

def opening (layout : KeyLayout) (queue : String) : String := layout.keyPrefix ++ ":\x7b" ++ queue

theorem opening_injective {layout : KeyLayout} {queue other : String}
    (same : layout.opening queue = layout.opening other) : queue = other := by
  have texts := congrArg String.toList same
  simp only [opening, String.toList_append] at texts
  exact String.toList_inj.mp (List.append_cancel_left texts)

theorem toList_key (layout : KeyLayout) (queue : String) (purpose : Purpose) :
    (layout.key queue purpose).toList =
      (layout.opening queue).toList ++ '\x7d' :: purpose.ending.toList := by
  cases purpose with
  | pending tenant => simp [key, pending, pendingBase, base, opening, Purpose.ending]
  | active => simp [key, active, base, opening, Purpose.ending]
  | processing tenant => simp [key, processing, base, opening, Purpose.ending]
  | payload handle => simp [key, payload, base, opening, Purpose.ending]

/-- A list is cut in one way only at the last of its separators. -/
private theorem last_cut_eq {separator : Char} {front other rest remaining : List Char}
    (clean : separator ∉ rest) (otherClean : separator ∉ remaining)
    (same : front ++ separator :: rest = other ++ separator :: remaining) :
    front = other ∧ rest = remaining := by
  obtain ⟨gap, rfl, tail⟩ | ⟨gap, rfl, tail⟩ := List.append_eq_append_iff.mp same
  · cases gap with
    | nil => exact ⟨(List.append_nil _).symm, (List.cons.inj tail).2⟩
    | cons first gap =>
      have behind : rest = gap ++ separator :: remaining := (List.cons.inj tail).2
      exact absurd (behind ▸ List.mem_append_right gap List.mem_cons_self) clean
  · cases gap with
    | nil => exact ⟨List.append_nil _, (List.cons.inj tail).2.symm⟩
    | cons first gap =>
      have behind : remaining = gap ++ separator :: rest := (List.cons.inj tail).2
      exact absurd (behind ▸ List.mem_append_right gap List.mem_cons_self) otherClean

theorem key_inj {layout : KeyLayout} {queue other : String} {first second : Purpose} :
    layout.key queue first = layout.key other second ↔ queue = other ∧ first = second := by
  constructor
  · intro same
    have texts := congrArg String.toList same
    rw [toList_key, toList_key] at texts
    obtain ⟨openings, endings⟩ :=
      last_cut_eq first.brace_not_mem_ending second.brace_not_mem_ending texts
    exact ⟨opening_injective (String.toList_inj.mp openings),
      Purpose.ending_injective (String.toList_inj.mp endings)⟩
  · rintro ⟨rfl, rfl⟩
    rfl

/-- Each key serves one purpose of one queue. A base with a tenant behind it is the key of that
tenant's pending set and no other key. The fingerprints of tasks, and the empty one, are handles. -/
theorem keys_never_collide (layout : KeyLayout) :
    (∀ (queue other : String) (first second : Purpose),
      layout.key queue first = layout.key other second ↔ queue = other ∧ first = second) ∧
    (∀ (queue other : String) (tenant : Tenant) (purpose : Purpose),
      layout.pendingBase queue ++ tenant.name = layout.key other purpose ↔
        queue = other ∧ purpose = .pending tenant) ∧
    (∀ (taskType : String) (tenant : Tenant) (payload : Bytes),
      (Fingerprint.of taskType tenant payload).IsHandle) ∧
    Fingerprint.empty.IsHandle := by
  refine ⟨fun queue other first second => key_inj, ?_, Fingerprint.isHandle_of, Or.inl rfl⟩
  intro queue other tenant purpose
  change layout.key queue (.pending tenant) = layout.key other purpose ↔ _
  rw [key_inj, eq_comm (a := Purpose.pending tenant)]

end KeyLayout
end TenantQueue
