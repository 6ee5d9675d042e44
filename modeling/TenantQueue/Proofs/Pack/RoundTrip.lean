import TenantQueue.Pack.Reader
import TenantQueue.Pack.Writer
import Mathlib.Algebra.Group.Nat.Defs

/-! What is written in packed form is read back, whatever bytes follow it. -/
namespace TenantQueue

namespace Bytes

theorem toNat_ofNat (width value : Nat) (fits : value < 256 ^ width) :
    toNat (ofNat width value) = value := by
  have folded (sum : Nat) :
      (ofNat width value).foldl (fun value byte => value * 256 + byte.toNat) sum =
        sum * 256 ^ width + value % 256 ^ width := by
    clear fits
    induction width generalizing sum with
    | zero => simp [ofNat, Nat.mod_one]
    | succ width ih =>
      have digits : value % (256 ^ width * 256) =
          value % 256 ^ width + 256 ^ width * (value / 256 ^ width % 256) := Nat.mod_mul
      have byte : (UInt8.ofNat (value / 256 ^ width)).toNat = value / 256 ^ width % 256 := by simp
      rw [ofNat, List.foldl_cons, ih, Nat.pow_eq, byte, Nat.pow_succ, digits, Nat.add_mul,
        Nat.mul_assoc, Nat.mul_comm 256, Nat.mul_comm (value / 256 ^ width % 256)]
      omega
  rw [toNat, folded 0, Nat.mod_eq_of_lt fits]
  omega

end Bytes

namespace Pack

theorem readBytes_append (bytes rest : Bytes) :
    readBytes bytes.length (bytes ++ rest) = some (bytes, rest) := by
  simp [readBytes]

theorem readNumber_ofNat (width value : Nat) (rest : Bytes) (fits : value < 256 ^ width) :
    readNumber width (Bytes.ofNat width value ++ rest) = some (value, rest) := by
  have read := readBytes_append (Bytes.ofNat width value) rest
  rw [Bytes.length_ofNat] at read
  rw [readNumber, read]
  exact congrArg (fun number => some (number, rest)) (Bytes.toNat_ofNat width value fits)

theorem readSigned_complement (width : Nat) (value : Int) (rest : Bytes)
    (low : -(256 ^ width : Nat) ≤ 2 * value) (negative : value < 0) :
    readSigned width (Bytes.ofNat width (complement width value) ++ rest) = some (value, rest) := by
  have positive : 0 < 256 ^ width := Nat.pow_pos (by decide)
  have code : ((complement width value : Nat) : Int) = value + (256 ^ width : Nat) := by
    unfold complement
    rw [Nat.pow_eq]
    generalize 256 ^ width = size at low positive ⊢
    have residue : value % (size : Int) = value + size := by
      rw [← Int.add_emod_right, Int.emod_eq_of_lt] <;> omega
    omega
  generalize complement width value = number at code ⊢
  have fits : number < 256 ^ width := by omega
  have upper : ¬2 * number < 256 ^ width := by omega
  rw [readSigned, readNumber_ofNat width number rest fits, Option.map_some]
  simp only [Nat.pow_eq, if_neg upper]
  congr 2
  omega

theorem readLength_ofNat (width value : Nat) (rest : Bytes) (some_bytes : width ≠ 0)
    (fits : value < 256 ^ width) :
    readLength width 0 (Bytes.ofNat width value ++ rest) = some (value, rest) := by
  rw [readLength, if_neg some_bytes]
  exact readNumber_ofNat width value rest fits

theorem readWithin_cons (depth : Nat) (first : UInt8) (rest : Bytes) :
    ∃ inside, Value.readWithin depth (first :: rest) = readBody inside (Head.ofByte first) rest := by
  cases depth with
  | zero => exact ⟨none, rfl⟩
  | succ depth => exact ⟨some (Value.readWithin depth), rfl⟩

/-- The bytes announce a value and are read back as it, at any depth. -/
def Reads (bytes : Bytes) (value : Value) : Prop :=
  ∀ depth rest, Value.readWithin depth (bytes ++ rest) = some (value, rest)

theorem reads_of_head (first : UInt8) (bytes : Bytes) (value : Value) (head : Head)
    (announces : Head.ofByte first = head)
    (body : ∀ inside rest, readBody inside head (bytes ++ rest) = some (value, rest)) :
    Reads (first :: bytes) value := by
  intro depth rest
  obtain ⟨inside, read⟩ := readWithin_cons depth first (bytes ++ rest)
  rw [List.cons_append, read, announces, body]

theorem writeUnsigned_reads (value : Nat) (small : value < 0x10000000000000000) :
    Reads (writeUnsigned value) (.unsigned value) := by
  have wide (first : UInt8) (width : Nat) (announces : Head.ofByte first = .unsigned width)
      (fits : value < 256 ^ width) : Reads (first :: Bytes.ofNat width value) (.unsigned value) := by
    refine reads_of_head _ _ _ _ announces ?_
    intro inside rest
    simp only [readBody, readNumber_ofNat width value rest fits, Option.map_some]
  unfold writeUnsigned
  split
  · rename_i whole
    have code : (UInt8.ofNat value).toNat = value := by
      simp only [UInt8.toNat_ofNat']
      omega
    refine reads_of_head _ [] _ (.whole (.unsigned value)) ?_ fun inside rest => rfl
    simp only [Head.ofByte, code, if_pos whole]
  · split
    · exact wide 0xcc 1 rfl ‹_›
    · split
      · exact wide 0xcd 2 rfl ‹_›
      · split
        · exact wide 0xce 4 rfl ‹_›
        · exact wide 0xcf 8 rfl small

theorem writeNegative_reads (value : Int) (low : -0x8000000000000000 ≤ value) (negative : value < 0) :
    Reads (writeNegative value) (.signed value) := by
  have wide (first : UInt8) (width : Nat) (announces : Head.ofByte first = .signed width)
      (fits : -(256 ^ width : Nat) ≤ 2 * value) :
      Reads (first :: Bytes.ofNat width (complement width value)) (.signed value) := by
    refine reads_of_head _ _ _ _ announces ?_
    intro inside rest
    simp only [readBody, readSigned_complement width value rest fits negative, Option.map_some]
  unfold writeNegative
  split
  · rename_i small
    have code : (UInt8.ofNat (complement 1 value / Nat.pow 256 0)).toNat = complement 1 value ∧
        ((complement 1 value : Nat) : Int) = value + 256 := by
      have residue : value % ((Nat.pow 256 1 : Nat) : Int) = value + 256 := by
        change value % 256 = value + 256
        omega
      simp only [complement, residue, UInt8.toNat_ofNat', Nat.pow_eq, Nat.pow_zero, Nat.div_one]
      omega
    refine reads_of_head _ [] _ (.whole (.signed value)) ?_ fun inside rest => rfl
    have high : 0xe0 ≤ complement 1 value := by omega
    have number : ((complement 1 value : Nat) : Int) - 256 = value := by omega
    simp only [Head.ofByte, code.1, if_neg (show ¬complement 1 value < 0x80 by omega),
      if_neg (show ¬complement 1 value < 0x90 by omega),
      if_neg (show ¬complement 1 value < 0xa0 by omega),
      if_neg (show ¬complement 1 value < 0xc0 by omega), if_pos high, number]
  · split
    · exact wide 0xd0 1 rfl (by omega)
    · split
      · exact wide 0xd1 2 rfl (by omega)
      · split
        · exact wide 0xd2 4 rfl (by omega)
        · exact wide 0xd3 8 rfl (by omega)

theorem writeInteger_reads (value : Int) (low : -0x8000000000000000 ≤ value)
    (high : value < 0x10000000000000000) :
    ∃ written, Reads (writeInteger value) written ∧ written.integer? = some value := by
  unfold writeInteger
  split
  · rename_i positive
    refine ⟨_, writeUnsigned_reads value.toNat (by omega), ?_⟩
    exact congrArg some (Int.toNat_of_nonneg positive)
  · rename_i negative
    exact ⟨_, writeNegative_reads value low (Int.not_le.mp negative), rfl⟩

def Announces (bytes : Bytes) (head : Nat → Nat → Head) (length : Nat) : Prop :=
  ∃ first more lengthWidth given, bytes = first :: more ∧
    Head.ofByte first = head lengthWidth given ∧
    ∀ rest, readLength lengthWidth given (more ++ rest) = some (length, rest)

theorem announces_wide (first : UInt8) (width length : Nat) (head : Nat → Nat → Head)
    (announces : Head.ofByte first = head width 0) (some_bytes : width ≠ 0)
    (fits : length < 256 ^ width) :
    Announces (first :: Bytes.ofNat width length) head length :=
  ⟨first, _, width, 0, rfl, announces, fun rest => readLength_ofNat width length rest some_bytes fits⟩

theorem announces_short (base length : Nat) (head : Nat → Nat → Head)
    (announces : Head.ofByte (UInt8.ofNat (base + length)) = head 0 length) :
    Announces [UInt8.ofNat (base + length)] head length :=
  ⟨_, [], 0, length, rfl, announces, fun _ => rfl⟩

theorem textHead_announces (length : Nat) (short : length < 0x100000000) :
    Announces (textHead length) .text length := by
  unfold textHead
  split
  · rename_i small
    have code : (UInt8.ofNat (0xa0 + length)).toNat = 0xa0 + length := by
      simp only [UInt8.toNat_ofNat']
      omega
    refine announces_short 0xa0 length _ ?_
    simp only [Head.ofByte, code, if_neg (show ¬0xa0 + length < 0x80 by omega),
      if_neg (show ¬0xa0 + length < 0x90 by omega), if_neg (show ¬0xa0 + length < 0xa0 by omega),
      if_pos (show 0xa0 + length < 0xc0 by omega), Nat.add_sub_cancel_left]
  · split
    · exact announces_wide 0xd9 1 length _ rfl (by decide) ‹_›
    · split
      · exact announces_wide 0xda 2 length _ rfl (by decide) ‹_›
      · exact announces_wide 0xdb 4 length _ rfl (by decide) short

theorem arrayHead_announces (length : Nat) (short : length < 0x100000000) :
    Announces (arrayHead length) .array length := by
  unfold arrayHead
  split
  · rename_i small
    have code : (UInt8.ofNat (0x90 + length)).toNat = 0x90 + length := by
      simp only [UInt8.toNat_ofNat']
      omega
    refine announces_short 0x90 length _ ?_
    simp only [Head.ofByte, code, if_neg (show ¬0x90 + length < 0x80 by omega),
      if_neg (show ¬0x90 + length < 0x90 by omega), if_pos (show 0x90 + length < 0xa0 by omega),
      Nat.add_sub_cancel_left]
  · split
    · exact announces_wide 0xdc 2 length _ rfl (by decide) ‹_›
    · exact announces_wide 0xdd 4 length _ rfl (by decide) short

theorem mapHead_announces (length : Nat) (short : length < 0x100000000) :
    Announces (mapHead length) .map length := by
  unfold mapHead
  split
  · rename_i small
    have code : (UInt8.ofNat (0x80 + length)).toNat = 0x80 + length := by
      simp only [UInt8.toNat_ofNat']
      omega
    refine announces_short 0x80 length _ ?_
    simp only [Head.ofByte, code, if_neg (show ¬0x80 + length < 0x80 by omega),
      if_pos (show 0x80 + length < 0x90 by omega), Nat.add_sub_cancel_left]
  · split
    · exact announces_wide 0xde 2 length _ rfl (by decide) ‹_›
    · exact announces_wide 0xdf 4 length _ rfl (by decide) short

theorem writeText_reads (text : String) (short : (Bytes.ofText text).length < 0x100000000) :
    Reads (writeText text) (.text (Bytes.ofText text)) := by
  unfold writeText
  generalize Bytes.ofText text = bytes at short ⊢
  obtain ⟨first, more, lengthWidth, given, written, announces, reads⟩ :=
    textHead_announces bytes.length short
  dsimp only
  rw [written, List.cons_append]
  refine reads_of_head _ _ _ _ announces fun inside rest => ?_
  simp only [readBody, readSized, List.append_assoc, reads, bind, Option.bind, readBytes_append]
  rfl

theorem readMany_flatMap {α β : Type} (read : Reader β) (write : α → Bytes) (value : α → β)
    (items : List α) (before : List β) (rest : Bytes)
    (each : ∀ item ∈ items, ∀ rest, read (write item ++ rest) = some (value item, rest)) :
    readMany read items.length before (items.flatMap write ++ rest) =
      some (before.reverse ++ items.map value, rest) := by
  induction items generalizing before with
  | nil => simp [readMany]
  | cons item others ih =>
    obtain ⟨here, rests⟩ := List.forall_mem_cons.mp each
    simp only [List.length_cons, List.flatMap_cons, List.append_assoc, readMany, here]
    rw [ih _ rests]
    simp

theorem readMany_flatMap_none {α β : Type} (read : Reader β) (write : α → Bytes) (value : α → β)
    (items : List α) (before : List β) (rest : Bytes)
    (each : ∀ item ∈ items, (∀ rest, read (write item ++ rest) = some (value item, rest)) ∨
      ∀ rest, read (write item ++ rest) = none)
    (fails : ∃ item ∈ items, ∀ rest, read (write item ++ rest) = none) :
    readMany read items.length before (items.flatMap write ++ rest) = none := by
  induction items generalizing before with
  | nil =>
    obtain ⟨item, member, _⟩ := fails
    contradiction
  | cons item others ih =>
    obtain ⟨here, rests⟩ := List.forall_mem_cons.mp each
    simp only [List.length_cons, List.flatMap_cons, List.append_assoc, readMany]
    rcases here with reads | stops
    · rw [reads]
      obtain ⟨failing, member, stops⟩ := fails
      rcases List.mem_cons.mp member with rfl | later
      · have both := (reads []).symm.trans (stops [])
        contradiction
      · exact ih (value item :: before) rests ⟨failing, later, stops⟩
    · rw [stops]

/-- An array is read as its items are, one level deeper. -/
theorem Announces.readWithin_array {head : Bytes} {count : Nat} (announced : Announces head .array count)
    (depth : Nat) (body : Bytes) :
    Value.readWithin (depth + 1) (head ++ body) =
      (readMany (Value.readWithin depth) count [] body).map fun found => (.array found.1, found.2) := by
  obtain ⟨first, more, lengthWidth, given, rfl, announces, reads⟩ := announced
  rw [List.cons_append, Value.readWithin, announces]
  simp only [readBody, bind, Option.bind, reads]
  cases readMany (Value.readWithin depth) count [] body <;> rfl

theorem Announces.readWithin_map {head : Bytes} {count : Nat} (announced : Announces head .map count)
    (depth : Nat) (body : Bytes) :
    Value.readWithin (depth + 1) (head ++ body) =
      (readMany (readEntry (Value.readWithin depth)) count [] body).map
        fun found => (.map found.1, found.2) := by
  obtain ⟨first, more, lengthWidth, given, rfl, announces, reads⟩ := announced
  rw [List.cons_append, Value.readWithin, announces]
  simp only [readBody, bind, Option.bind, reads]
  cases readMany (readEntry (Value.readWithin depth)) count [] body <;> rfl

theorem readWithin_array {α : Type} (depth : Nat) (write : α → Bytes) (value : α → Value)
    (items : List α) (rest : Bytes) (short : items.length < 0x100000000)
    (each : ∀ item ∈ items, ∀ rest,
      Value.readWithin depth (write item ++ rest) = some (value item, rest)) :
    Value.readWithin (depth + 1) (arrayHead items.length ++ items.flatMap write ++ rest) =
      some (.array (items.map value), rest) := by
  have many := readMany_flatMap (Value.readWithin depth) write value items [] rest each
  rw [List.append_assoc, (arrayHead_announces items.length short).readWithin_array, many]
  rfl

theorem readWithin_map {α : Type} (depth : Nat) (write : α → Bytes) (value : α → Value × Value)
    (items : List α) (rest : Bytes) (short : items.length < 0x100000000)
    (each : ∀ item ∈ items, ∀ rest,
      readEntry (Value.readWithin depth) (write item ++ rest) = some (value item, rest)) :
    Value.readWithin (depth + 1) (mapHead items.length ++ items.flatMap write ++ rest) =
      some (.map (items.map value), rest) := by
  have many := readMany_flatMap (readEntry (Value.readWithin depth)) write value items [] rest each
  rw [List.append_assoc, (mapHead_announces items.length short).readWithin_map, many]
  rfl

theorem readEntry_append (read : Reader Value) (key value : Bytes) (readKey readValue : Value)
    (rest : Bytes) (first : ∀ rest, read (key ++ rest) = some (readKey, rest))
    (second : ∀ rest, read (value ++ rest) = some (readValue, rest)) :
    readEntry read (key ++ value ++ rest) = some ((readKey, readValue), rest) := by
  simp only [readEntry, List.append_assoc, first, second]

end Pack
end TenantQueue
