import TenantQueue.Engine.Basic
import TenantQueue.Proofs.Tenant

/-! What equal fingerprints say about two tasks. The zero byte after the type delimits it as long
as the type holds no zero byte itself; a type that does can take over the whole input of a task of
another tenant. -/
namespace TenantQueue

theorem Tenant.zero_not_mem_name (tenant : Tenant) : 0 ∉ Bytes.ofText tenant.name := by
  intro zero
  rw [Bytes.zero_mem_ofText_iff] at zero
  obtain minus | digit := Tenant.mem_name zero
  · contradiction
  · contradiction

def Digest.Collide (first second : Bytes) : Prop :=
  first ≠ second ∧ Digest.sha256 first = Digest.sha256 second

namespace Fingerprint

variable {firstType secondType : String} {first second : Tenant} {firstPayload secondPayload : Bytes}

/-- The longer type begins with the shorter one, a zero byte and the shorter one's tenant. What the
type still holds after them, the payload of the shorter one begins with. -/
def Straddles (shortType : String) (short : Tenant) (shortPayload : Bytes)
    (longType : String) (long : Tenant) (longPayload : Bytes) : Prop :=
  ∃ gap : Bytes,
    Bytes.ofText longType = Bytes.ofText shortType ++ 0 :: (Bytes.ofText short.name ++ gap) ∧
    0 :: shortPayload = gap ++ 0 :: (Bytes.ofText long.name ++ 0 :: longPayload)

private theorem gap_empty_or_zero_mem {gap rest remaining : Bytes}
    (tail : 0 :: rest = gap ++ 0 :: remaining) : (gap = [] ∧ rest = remaining) ∨ 0 ∈ gap := by
  cases gap with
  | nil => exact Or.inl ⟨rfl, (List.cons.inj tail).2⟩
  | cons byte gap =>
    have zero : 0 = byte := (List.cons.inj tail).1
    exact Or.inr (zero ▸ List.mem_cons_self)

private theorem prefix_of_delimited {field other rest remaining : Bytes} (clean : 0 ∉ field)
    (same : field ++ 0 :: rest = other ++ 0 :: remaining) :
    ∃ gap, other = field ++ gap ∧ 0 :: rest = gap ++ 0 :: remaining := by
  obtain ⟨gap, longer, tail⟩ | ⟨gap, shorter, tail⟩ := List.append_eq_append_iff.mp same
  · exact ⟨gap, longer, tail⟩
  · obtain ⟨rfl, rfl⟩ | zero := gap_empty_or_zero_mem tail
    · exact ⟨[], by rw [shorter, List.append_nil, List.append_nil], rfl⟩
    · exact absurd (shorter ▸ List.mem_append_right other zero) clean

private theorem delimited {field other rest remaining : Bytes} (clean : 0 ∉ field)
    (otherClean : 0 ∉ other) (same : field ++ 0 :: rest = other ++ 0 :: remaining) :
    field = other ∧ rest = remaining := by
  obtain ⟨gap, longer, tail⟩ := prefix_of_delimited clean same
  obtain ⟨rfl, rest⟩ | zero := gap_empty_or_zero_mem tail
  · exact ⟨by rw [longer, List.append_nil], rest⟩
  · exact absurd (longer ▸ List.mem_append_right field zero) otherClean

/-- A type that goes on where the other one ends. -/
private theorem same_or_straddles {gap : Bytes}
    (longer : Bytes.ofText secondType = Bytes.ofText firstType ++ gap)
    (tail : 0 :: (Bytes.ofText first.name ++ 0 :: firstPayload) =
      gap ++ 0 :: (Bytes.ofText second.name ++ 0 :: secondPayload)) :
    (firstType = secondType ∧ first = second ∧ firstPayload = secondPayload) ∨
      Straddles firstType first firstPayload secondType second secondPayload := by
  cases gap with
  | nil =>
    have types : firstType = secondType := Bytes.ofText_injective (by simpa using longer.symm)
    have rest := (List.cons.inj tail).2
    obtain ⟨names, payloads⟩ := delimited first.zero_not_mem_name second.zero_not_mem_name rest
    exact Or.inl ⟨types, Tenant.name_injective (Bytes.ofText_injective names), payloads⟩
  | cons byte gap =>
    obtain ⟨zero, rest⟩ := List.cons.inj tail
    obtain ⟨beyond, named, payload⟩ := prefix_of_delimited first.zero_not_mem_name rest
    refine Or.inr ⟨beyond, ?_, payload⟩
    rw [longer, ← zero, named]

theorem Straddles.input_eq
    (straddles : Straddles firstType first firstPayload secondType second secondPayload) :
    input firstType first firstPayload = input secondType second secondPayload := by
  obtain ⟨gap, types, payload⟩ := straddles
  rw [input, input, types, payload]
  simp only [List.append_assoc, List.cons_append]

theorem Straddles.nul_mem
    (straddles : Straddles firstType first firstPayload secondType second secondPayload) :
    '\x00' ∈ secondType.toList := by
  obtain ⟨gap, types, -⟩ := straddles
  rw [← Bytes.zero_mem_ofText_iff, types]
  exact List.mem_append_right _ List.mem_cons_self

theorem input_eq_iff :
    input firstType first firstPayload = input secondType second secondPayload ↔
      (firstType = secondType ∧ first = second ∧ firstPayload = secondPayload) ∨
        Straddles firstType first firstPayload secondType second secondPayload ∨
        Straddles secondType second secondPayload firstType first firstPayload := by
  constructor
  · intro same
    obtain ⟨gap, longer, tail⟩ | ⟨gap, longer, tail⟩ := List.append_eq_append_iff.mp same
    · obtain equal | straddles := same_or_straddles longer tail
      · exact Or.inl equal
      · exact Or.inr (Or.inl straddles)
    · obtain ⟨types, tenants, payloads⟩ | straddles := same_or_straddles longer tail
      · exact Or.inl ⟨types.symm, tenants.symm, payloads.symm⟩
      · exact Or.inr (Or.inr straddles)
  · rintro (⟨rfl, rfl, rfl⟩ | straddles | straddles)
    · rfl
    · exact straddles.input_eq
    · exact straddles.input_eq.symm

theorem of_eq_iff_digest :
    of firstType first firstPayload = of secondType second secondPayload ↔
      Digest.sha256 (input firstType first firstPayload) =
        Digest.sha256 (input secondType second secondPayload) := by
  unfold of
  rw [Fingerprint.mk.injEq]
  exact ⟨Bytes.hex_injective, congrArg Bytes.hex⟩

/-- Types without a zero character delimit themselves. -/
theorem input_injective (firstClean : '\x00' ∉ firstType.toList)
    (secondClean : '\x00' ∉ secondType.toList)
    (same : input firstType first firstPayload = input secondType second secondPayload) :
    firstType = secondType ∧ first = second ∧ firstPayload = secondPayload := by
  obtain equal | straddles | straddles := input_eq_iff.mp same
  · exact equal
  · exact absurd straddles.nul_mem secondClean
  · exact absurd straddles.nul_mem firstClean

/-- Two tasks share a fingerprint when they are one task, when a zero character in a type lets
their inputs coincide, or when the digest collides. -/
theorem of_eq_iff (firstType secondType : String) (first second : Tenant)
    (firstPayload secondPayload : Bytes) :
    of firstType first firstPayload = of secondType second secondPayload ↔
      (firstType = secondType ∧ first = second ∧ firstPayload = secondPayload) ∨
      ('\x00' ∈ secondType.toList ∧
        Straddles firstType first firstPayload secondType second secondPayload) ∨
      ('\x00' ∈ firstType.toList ∧
        Straddles secondType second secondPayload firstType first firstPayload) ∨
      Digest.Collide (input firstType first firstPayload)
        (input secondType second secondPayload) := by
  rw [of_eq_iff_digest]
  constructor
  · intro digests
    by_cases same : input firstType first firstPayload = input secondType second secondPayload
    · obtain equal | straddles | straddles := input_eq_iff.mp same
      · exact Or.inl equal
      · exact Or.inr (Or.inl ⟨straddles.nul_mem, straddles⟩)
      · exact Or.inr (Or.inr (Or.inl ⟨straddles.nul_mem, straddles⟩))
    · exact Or.inr (Or.inr (Or.inr ⟨same, digests⟩))
  · rintro (equal | ⟨-, straddles⟩ | ⟨-, straddles⟩ | ⟨-, digests⟩)
    · rw [input_eq_iff.mpr (Or.inl equal)]
    · rw [straddles.input_eq]
    · rw [straddles.input_eq]
    · exact digests

private theorem inputs_coincide :
    input "a" ⟨1⟩ [0x32, 0, 0x78] = input "a\x001" ⟨2⟩ [0x78] := by
  decide +kernel

/-- The engine takes both tasks. The second one's type reads as the first one's type and tenant,
and the first one's payload as the tenant and payload of the second. -/
theorem input_not_injective :
    ∃ first second : Task,
      Engine.standard.check "q" first = .ok () ∧ Engine.standard.check "q" second = .ok () ∧
      first.tenant ≠ second.tenant ∧
      input first.taskType first.tenant first.payload =
        input second.taskType second.tenant second.payload ∧
      first.fingerprint = second.fingerprint := by
  refine ⟨⟨"a", ⟨1⟩, [0x32, 0, 0x78], ⟨1700000000, 0⟩, 0⟩,
    ⟨"a\x001", ⟨2⟩, [0x78], ⟨1700000000, 0⟩, 0⟩, rfl, rfl, by decide,
    inputs_coincide, ?_⟩
  exact of_eq_iff_digest.mpr (congrArg Digest.sha256 inputs_coincide)

end Fingerprint
end TenantQueue
