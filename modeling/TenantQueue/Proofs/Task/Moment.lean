import TenantQueue.Proofs.Task.Record

/-! The record of a task without errors ends in the time at which the task was queued, so tasks queued at
different instants have different records, however long their types and payloads are. The time stands
behind the name of its field, and holds no letter of the alphabet as late as the last one of that name. -/
namespace TenantQueue

/-- Each character of the first half of a byte is one byte. -/
theorem Bytes.ofText_ascii (text : String) (ascii : ∀ character ∈ text.toList, character.toNat < 0x80) :
    ofText text = text.toList.map fun character => character.val.toUInt8 := by
  rw [ofText_eq_flatMap]
  generalize text.toList = characters at ascii ⊢
  induction characters with
  | nil => rfl
  | cons first rest ih =>
    obtain ⟨here, there⟩ := List.forall_mem_cons.mp ascii
    have single : first.utf8Size = 1 := by
      rw [Char.utf8Size_eq_one_iff, UInt32.le_iff_toNat_le]
      exact Nat.le_of_lt_succ here
    rw [List.flatMap_cons, String.utf8EncodeChar_eq_singleton single, ih there]
    rfl

namespace Instant

/-- The letters in the text of an instant come before the last letter of the field's name. -/
theorem toNat_lt_of_mem_characters {instant : Instant} {character : Char}
    (member : character ∈ instant.characters) : character.toNat < 0x6e := by
  have padded {width value : Nat} (digit : character ∈ paddedDigits width value) :
      character.toNat < 0x6e := by
    have known := isDigit_of_mem_paddedDigits digit
    simp only [Char.isDigit, Bool.and_eq_true, decide_eq_true_eq] at known
    have most : character.toNat ≤ 57 := known.2
    omega
  have year (written : character ∈ yearText instant.date.year) : character.toNat < 0x6e := by
    unfold yearText at written
    split at written
    · exact padded written
    · obtain rfl | digit := List.mem_cons.mp written
      · split <;> decide
      · exact padded digit
  have fraction {nanos : Nat} (written : character ∈ fractionText nanos) : character.toNat < 0x6e := by
    unfold fractionText at written
    split at written
    · contradiction
    · repeat' split at written
      all_goals
        obtain rfl | digit := List.mem_cons.mp written
        · decide
        · exact padded digit
  simp only [characters, List.mem_append, List.mem_cons, List.not_mem_nil, or_false] at member
  obtain ((((((written | rfl | digit) | rfl | digit) | rfl | digit) | rfl | digit) | rfl | digit) |
    written) | rfl := member
  · exact year written
  all_goals first | decide | exact padded digit | exact fraction written

end Instant

namespace Task
open Pack

/-- The packed text of an instant holds no byte of the last letter of the field's name. -/
theorem letter_not_mem_writeText {instant : Instant} (valid : instant.IsValid) :
    0x6e ∉ writeText instant.text := by
  have small (character : Char) (member : character ∈ instant.text.toList) :
      character.toNat < 0x6e := by
    rw [Instant.text, String.toList_ofList] at member
    exact Instant.toNat_lt_of_mem_characters member
  have bytes := Bytes.ofText_ascii instant.text fun character member =>
    Nat.lt_trans (small character member) (by decide)
  have short : (Bytes.ofText instant.text).length ≤ 100 := by
    rw [bytes, List.length_map, Instant.text, String.toList_ofList]
    exact Instant.length_characters_le instant valid
  intro letter
  unfold writeText at letter
  dsimp only at letter
  obtain head | body := List.mem_append.mp letter
  · generalize (Bytes.ofText instant.text).length = length at short head
    unfold textHead at head
    split at head
    · simp only [List.mem_singleton, ← UInt8.toNat_inj, UInt8.toNat_ofNat'] at head
      change 0x6e = (0xa0 + length) % 256 at head
      omega
    · rw [if_pos (by omega)] at head
      simp only [Bytes.ofNat, List.mem_cons, List.not_mem_nil, or_false, ← UInt8.toNat_inj,
        UInt8.toNat_ofNat', Nat.pow_eq, Nat.pow_zero, Nat.div_one] at head
      change 0x6e = 0xd9 ∨ 0x6e = length % 256 at head
      omega
  · rw [bytes] at body
    obtain ⟨character, member, same⟩ := List.mem_map.mp body
    have less := small character member
    rw [← UInt8.toNat_inj, UInt32.toNat_toUInt8] at same
    change character.toNat % 256 = 0x6e at same
    omega

/-- What stands before the text of the time in the record of a task without errors. -/
theorem exists_encode_eq {task : Task} (new : task.errorCount = 0) :
    ∃ front : Bytes, task.encode = front ++ 0x6e :: writeText task.queuedOn.text := by
  have name : writeText Field.queuedOn.name =
      [0xa9, 0x71, 0x75, 0x65, 0x75, 0x65, 0x64, 0x5f, 0x6f] ++ [0x6e] := by
    decide +kernel
  have cut (front title text : Bytes) :
      front ++ (title ++ [0x6e] ++ text) ++ [] = front ++ title ++ 0x6e :: text := by
    simp
  unfold encode
  rw [if_pos new, if_pos new, name]
  exact ⟨_, cut _ _ _⟩

theorem queuedOn_eq_of_encode_eq {first second : Task} (new : first.errorCount = 0)
    (also : second.errorCount = 0) (valid : first.queuedOn.IsValid) (validToo : second.queuedOn.IsValid)
    (same : first.encode = second.encode) : first.queuedOn = second.queuedOn := by
  -- The time is what follows the last byte of that letter.
  have last (front : Bytes) {text : Bytes} (clean : 0x6e ∉ text) :
      (front ++ 0x6e :: text).reverse.takeWhile (· != 0x6e) = text.reverse := by
    rw [List.reverse_append, List.reverse_cons, List.append_assoc, List.takeWhile_append_of_pos]
    · simp
    · intro byte member
      rw [bne_iff_ne]
      rintro rfl
      exact clean (List.mem_reverse.mp member)
  obtain ⟨front, record⟩ := exists_encode_eq new
  obtain ⟨otherFront, other⟩ := exists_encode_eq also
  have texts := last front (letter_not_mem_writeText valid)
  rw [← record, same, other, last _ (letter_not_mem_writeText validToo), List.reverse_inj] at texts
  have read := writeText_reads _ (length_ofText_text _ valid) 0 []
  rw [← texts, writeText_reads _ (length_ofText_text _ validToo), Option.some.injEq, Prod.mk.injEq,
    Value.text.injEq] at read
  have back := Instant.ofText?_text first.queuedOn valid
  rw [← Bytes.ofText_injective read.1, Instant.ofText?_text _ validToo] at back
  exact (Option.some.inj back).symm

end Task
end TenantQueue
