/-! Byte strings as lists of octets, with their hexadecimal text, big-endian
numbers and UTF-8 readings. -/
namespace TenantQueue

abbrev Bytes := List UInt8

namespace Bytes

private def hexDigit (nibble : UInt8) : Char :=
  if nibble < 10 then Char.ofNat (48 + nibble.toNat) else Char.ofNat (87 + nibble.toNat)

def hex (bytes : Bytes) : String :=
  String.ofList (bytes.flatMap fun byte : UInt8 => [hexDigit (byte >>> 4), hexDigit (byte &&& 15)])

private def nibble? (digit : Char) : Option UInt8 :=
  if '0' ≤ digit ∧ digit ≤ '9' then some (UInt8.ofNat (digit.toNat - 48))
  else if 'a' ≤ digit ∧ digit ≤ 'f' then some (UInt8.ofNat (digit.toNat - 87))
  else if 'A' ≤ digit ∧ digit ≤ 'F' then some (UInt8.ofNat (digit.toNat - 55))
  else none

private def ofHexDigits? : List Char → Bytes → Option Bytes
  | [], read => some read.reverse
  | high :: low :: rest, read =>
    match nibble? high, nibble? low with
    | some h, some l => ofHexDigits? rest ((h <<< 4 ||| l) :: read)
    | _, _ => none
  | [_], _ => none

def ofHex? (text : String) : Option Bytes := ofHexDigits? text.toList []

private theorem nibbles_read : ∀ value < 256,
    nibble? (hexDigit (UInt8.ofNat value >>> 4)) = some (UInt8.ofNat value >>> 4) ∧
      nibble? (hexDigit (UInt8.ofNat value &&& 15)) = some (UInt8.ofNat value &&& 15) ∧
      (UInt8.ofNat value >>> 4) <<< 4 ||| (UInt8.ofNat value &&& 15) = UInt8.ofNat value := by
  decide +kernel

private theorem ofHexDigits?_digits (bytes read : Bytes) :
    ofHexDigits? (bytes.flatMap fun byte : UInt8 => [hexDigit (byte >>> 4), hexDigit (byte &&& 15)])
      read = some (read.reverse ++ bytes) := by
  induction bytes generalizing read with
  | nil => simp [ofHexDigits?]
  | cons byte rest ih =>
    obtain ⟨high, low, whole⟩ := nibbles_read byte.toNat byte.toNat_lt
    rw [UInt8.ofNat_toNat] at high low whole
    simp only [List.flatMap_cons, List.cons_append, List.nil_append, ofHexDigits?, high, low, whole, ih,
      List.reverse_cons, List.append_assoc]

theorem ofHex?_hex (bytes : Bytes) : ofHex? (hex bytes) = some bytes := by
  rw [ofHex?, hex, String.toList_ofList, ofHexDigits?_digits, List.reverse_nil, List.nil_append]

theorem hex_injective {first second : Bytes} (same : hex first = hex second) : first = second := by
  have read := congrArg ofHex? same
  rw [ofHex?_hex, ofHex?_hex] at read
  exact Option.some.inj read

def isHexDigit (digit : Char) : Bool := digit.isDigit || ('a' ≤ digit && digit ≤ 'f')

private theorem isHexDigit_hexDigit : ∀ value < 256,
    isHexDigit (hexDigit (UInt8.ofNat value >>> 4)) = true ∧
      isHexDigit (hexDigit (UInt8.ofNat value &&& 15)) = true := by
  decide +kernel

theorem isHexDigit_of_mem_hex {bytes : Bytes} {digit : Char} (member : digit ∈ (hex bytes).toList) :
    isHexDigit digit = true := by
  rw [hex, String.toList_ofList, List.mem_flatMap] at member
  obtain ⟨byte, -, written⟩ := member
  obtain ⟨high, low⟩ := isHexDigit_hexDigit byte.toNat byte.toNat_lt
  rw [UInt8.ofNat_toNat] at high low
  simp only [List.mem_cons, List.not_mem_nil, or_false] at written
  obtain rfl | rfl := written
  · exact high
  · exact low

theorem length_hex (bytes : Bytes) : (hex bytes).toList.length = 2 * bytes.length := by
  rw [hex, String.toList_ofList]
  induction bytes with
  | nil => rfl
  | cons byte rest ih =>
    rw [List.flatMap_cons, List.length_append, ih, List.length_cons, List.length_cons, List.length_cons,
      List.length_nil]
    omega

/-- The last `width` base-256 digits of `value`, most significant first. -/
def ofNat (width value : Nat) : Bytes :=
  match width with
  | 0 => []
  | width + 1 => UInt8.ofNat (value / Nat.pow 256 width) :: ofNat width value

def toNat (bytes : Bytes) : Nat := bytes.foldl (fun value byte => value * 256 + byte.toNat) 0

def ofText (text : String) : Bytes := text.toByteArray.data.toList

def toText? (bytes : Bytes) : Option String := String.fromUTF8? (ByteArray.mk bytes.toArray)

theorem toText?_ofText (text : String) : toText? (ofText text) = some text := by
  have whole : ByteArray.mk text.toByteArray.data.toList.toArray = text.toByteArray := by simp
  unfold toText? ofText String.fromUTF8?
  rw [whole, dif_pos text.isValidUTF8]
  rfl

theorem ofText_injective {first second : String} (same : ofText first = ofText second) :
    first = second := by
  have := congrArg toText? same
  simpa [toText?_ofText] using this

theorem ofText_eq_flatMap (text : String) :
    ofText text = text.toList.flatMap String.utf8EncodeChar := by
  have whole (characters : List Char) :
      ofText (String.ofList characters) = characters.flatMap String.utf8EncodeChar := by
    simp [ofText, String.ofList, List.utf8Encode]
  have named := whole text.toList
  rwa [String.ofList_toList] at named

theorem length_ofText_ofList (characters : List Char) :
    (ofText (String.ofList characters)).length ≤ 4 * characters.length := by
  rw [ofText_eq_flatMap, String.toList_ofList]
  induction characters with
  | nil => exact Nat.le_refl 0
  | cons first rest ih =>
    have size := Char.utf8Size_le_four first
    simp only [List.flatMap_cons, List.length_append, String.length_utf8EncodeChar, List.length_cons]
    omega

private theorem zero_eq_ofNat (value : Nat) : (0 : UInt8) = UInt8.ofNat value ↔ value % 256 = 0 := by
  rw [← UInt8.toNat_inj, UInt8.toNat_ofNat', eq_comm]
  rfl

private theorem eq_nul_of_zero_mem {character : Char}
    (zero : 0 ∈ String.utf8EncodeChar character) : character = '\x00' := by
  have none : character.val.toNat = 0 := by
    unfold String.utf8EncodeChar at zero
    generalize character.val.toNat = value at zero ⊢
    -- Every byte of the three longer forms carries a marker bit.
    dsimp only at zero
    repeat' split at zero
    all_goals
      simp only [List.mem_cons, List.not_mem_nil, or_false, zero_eq_ofNat] at zero
      omega
  exact Char.ext (UInt32.toNat_inj.mp none)

theorem zero_mem_ofText_iff (text : String) : 0 ∈ ofText text ↔ '\x00' ∈ text.toList := by
  rw [ofText_eq_flatMap, List.mem_flatMap]
  constructor
  · rintro ⟨character, member, zero⟩
    rwa [← eq_nul_of_zero_mem zero]
  · intro member
    exact ⟨'\x00', member, by decide⟩

theorem length_ofNat (width value : Nat) : (ofNat width value).length = width := by
  induction width with
  | zero => rfl
  | succ width ih => simp [ofNat, ih]

end Bytes
end TenantQueue
