import TenantQueue.Pack.Reader
import Mathlib.Algebra.Group.Nat.Defs

/-! Lengths are read from at most four bytes, so what is read has a length of 32 bits. -/
namespace TenantQueue

theorem Bytes.toNat_lt (bytes : Bytes) : toNat bytes < 256 ^ bytes.length := by
  have folded (sum : Nat) : bytes.foldl (fun value byte => value * 256 + byte.toNat) sum <
      (sum + 1) * 256 ^ bytes.length := by
    induction bytes generalizing sum with
    | nil => simp
    | cons byte rest ih =>
      have small := byte.toNat_lt
      calc (byte :: rest).foldl (fun value byte => value * 256 + byte.toNat) sum
          < (sum * 256 + byte.toNat + 1) * 256 ^ rest.length := ih _
        _ ≤ ((sum + 1) * 256) * 256 ^ rest.length := Nat.mul_le_mul_right _ (by omega)
        _ = (sum + 1) * 256 ^ (byte :: rest).length := by
          rw [List.length_cons, Nat.pow_succ, Nat.mul_assoc, Nat.mul_comm 256]
  simpa [toNat] using folded 0

namespace Pack

theorem readBytes_length {count : Nat} {input bytes rest : Bytes}
    (read : readBytes count input = some (bytes, rest)) : bytes.length = count := by
  simp only [readBytes] at read
  split at read
  · rename_i whole
    obtain ⟨rfl, _⟩ := Prod.mk.inj (Option.some.inj read)
    exact whole
  · contradiction

/-- Every text, binary data and array in the value has a length of 32 bits. -/
inductive Value.Short : Value → Prop
  | nil : Short .nil
  | bool (value : Bool) : Short (.bool value)
  | unsigned (value : Nat) : Short (.unsigned value)
  | signed (value : Int) : Short (.signed value)
  | single (bits : UInt32) : Short (.single bits)
  | double (bits : UInt64) : Short (.double bits)
  | text (bytes : Bytes) (short : bytes.length < 0x100000000) : Short (.text bytes)
  | binary (bytes : Bytes) (short : bytes.length < 0x100000000) : Short (.binary bytes)
  | array (items : List Value) (short : items.length < 0x100000000)
      (each : ∀ item ∈ items, Short item) : Short (.array items)
  | map (entries : List (Value × Value)) (each : ∀ entry ∈ entries, Short entry.2) :
      Short (.map entries)
  | extension (kind : UInt8) (bytes : Bytes) : Short (.extension kind bytes)

def Head.Short : Head → Prop
  | .whole value => value.Short
  | .text lengthWidth length => lengthWidth ≤ 4 ∧ length < 0x100000000
  | .binary lengthWidth => lengthWidth ≤ 4
  | .array lengthWidth length => lengthWidth ≤ 4 ∧ length < 0x100000000
  | _ => True

theorem Head.ofByte_short (byte : UInt8) : (Head.ofByte byte).Short := by
  have range := byte.toNat_lt
  unfold Head.ofByte
  dsimp only
  generalize byte.toNat = code at range ⊢
  split
  · exact .unsigned code
  · split
    · trivial
    · split
      · exact ⟨by decide, by omega⟩
      · split
        · exact ⟨by decide, by omega⟩
        · split
          · exact .signed _
          · split
            case h_1 => exact .nil
            case h_2 => exact .bool false
            case h_3 => exact .bool true
            all_goals simp [Head.Short]

theorem readLength_lt {lengthWidth given length : Nat} {input rest : Bytes} (narrow : lengthWidth ≤ 4)
    (small : given < 0x100000000) (read : readLength lengthWidth given input = some (length, rest)) :
    length < 0x100000000 := by
  unfold readLength at read
  split at read
  · obtain ⟨rfl, _⟩ := Prod.mk.inj (Option.some.inj read)
    exact small
  · obtain ⟨⟨bytes, _⟩, taken, same⟩ := Option.map_eq_some_iff.mp read
    obtain ⟨rfl, _⟩ := Prod.mk.inj same
    have fits := Bytes.toNat_lt bytes
    rw [readBytes_length taken] at fits
    exact Nat.lt_of_lt_of_le fits (Nat.pow_le_pow_right (by decide) narrow)

theorem readMany_all {α : Type} (read : Reader α) (Good : α → Prop)
    (each : ∀ input value rest, read input = some (value, rest) → Good value)
    (count : Nat) (before values : List α) (input rest : Bytes) (all : ∀ value ∈ before, Good value)
    (many : readMany read count before input = some (values, rest)) :
    values.length = before.length + count ∧ ∀ value ∈ values, Good value := by
  induction count generalizing before input with
  | zero =>
    obtain ⟨rfl, _⟩ := Prod.mk.inj (Option.some.inj many)
    simpa using all
  | succ count ih =>
    simp only [readMany] at many
    split at many
    · contradiction
    · rename_i value next one
      obtain ⟨length, good⟩ := ih (value :: before) next
        (List.forall_mem_cons.mpr ⟨each _ _ _ one, all⟩) many
      rw [List.length_cons] at length
      exact ⟨by omega, good⟩

theorem readSized_short {lengthWidth given : Nat} {input rest : Bytes} {value : Value}
    (make : Bytes → Value) (narrow : lengthWidth ≤ 4) (small : given < 0x100000000)
    (made : ∀ bytes : Bytes, bytes.length < 0x100000000 → (make bytes).Short)
    (read : readSized lengthWidth given make input = some (value, rest)) : value.Short := by
  obtain ⟨⟨length, _⟩, counted, read⟩ := Option.bind_eq_some_iff.mp read
  obtain ⟨⟨bytes, _⟩, taken, read⟩ := Option.bind_eq_some_iff.mp read
  obtain ⟨rfl, _⟩ := Prod.mk.inj (Option.some.inj read)
  exact made bytes (readBytes_length taken ▸ readLength_lt narrow small counted)

theorem short_of_map {α : Type} {read : Option (α × Bytes)} {value : Value} {rest : Bytes}
    (make : α → Value) (made : ∀ part, (make part).Short)
    (mapped : read.map (fun part => (make part.1, part.2)) = some (value, rest)) : value.Short := by
  obtain ⟨part, _, same⟩ := Option.map_eq_some_iff.mp mapped
  obtain ⟨rfl, _⟩ := Prod.mk.inj same
  exact made part.1

theorem readEntry_short {read : Reader Value} {input rest : Bytes} {entry : Value × Value}
    (each : ∀ input value rest, read input = some (value, rest) → value.Short)
    (one : readEntry read input = some (entry, rest)) : entry.2.Short := by
  simp only [readEntry] at one
  split at one
  · contradiction
  · split at one
    · contradiction
    · rename_i second
      obtain ⟨rfl, _⟩ := Prod.mk.inj (Option.some.inj one)
      exact each _ _ _ second

theorem readBody_short {inside : Option (Reader Value)} {head : Head} {input rest : Bytes}
    {value : Value} (small : head.Short)
    (deeper : ∀ reader, inside = some reader →
      ∀ input value rest, reader input = some (value, rest) → value.Short)
    (read : readBody inside head input = some (value, rest)) : value.Short := by
  cases head with
  | whole known =>
    obtain ⟨rfl, _⟩ := Prod.mk.inj (Option.some.inj read)
    exact small
  | unsigned width => exact short_of_map .unsigned .unsigned read
  | signed width => exact short_of_map .signed .signed read
  | single => exact short_of_map (fun bits => .single (UInt32.ofNat bits)) (fun _ => .single _) read
  | double => exact short_of_map (fun bits => .double (UInt64.ofNat bits)) (fun _ => .double _) read
  | text lengthWidth length => exact readSized_short .text small.1 small.2 .text read
  | binary lengthWidth => exact readSized_short .binary small (by decide) .binary read
  | array lengthWidth length =>
    obtain ⟨reader, nests, read⟩ := Option.bind_eq_some_iff.mp read
    obtain ⟨⟨count, _⟩, counted, read⟩ := Option.bind_eq_some_iff.mp read
    obtain ⟨⟨items, _⟩, many, read⟩ := Option.bind_eq_some_iff.mp read
    obtain ⟨rfl, _⟩ := Prod.mk.inj (Option.some.inj read)
    have all := readMany_all reader Value.Short (deeper reader nests) _ [] _ _ _
      (List.forall_mem_nil _) many
    have few := readLength_lt small.1 small.2 counted
    exact .array items (by simpa [all.1] using few) all.2
  | map lengthWidth length =>
    obtain ⟨reader, nests, read⟩ := Option.bind_eq_some_iff.mp read
    obtain ⟨⟨count, _⟩, _, read⟩ := Option.bind_eq_some_iff.mp read
    obtain ⟨⟨entries, _⟩, many, read⟩ := Option.bind_eq_some_iff.mp read
    obtain ⟨rfl, _⟩ := Prod.mk.inj (Option.some.inj read)
    have all := readMany_all (readEntry reader) (fun entry => entry.2.Short)
      (fun _ _ _ => readEntry_short (deeper reader nests)) _ [] _ _ _ (List.forall_mem_nil _) many
    exact .map entries all.2
  | extension lengthWidth length =>
    simp only [readBody, readExtension] at read
    split at read
    · obtain ⟨⟨_, others⟩, _, read⟩ := Option.bind_eq_some_iff.mp read
      dsimp only at read
      split at read
      · contradiction
      · obtain ⟨_, _, read⟩ := Option.bind_eq_some_iff.mp read
        obtain ⟨rfl, _⟩ := Prod.mk.inj (Option.some.inj read)
        exact .extension _ _
    · contradiction
  | reserved => contradiction

theorem readWithin_short {depth : Nat} {input rest : Bytes} {value : Value}
    (read : Value.readWithin depth input = some (value, rest)) : value.Short := by
  induction depth generalizing input value rest with
  | zero =>
    cases input with
    | nil => contradiction
    | cons first others =>
      exact readBody_short (Head.ofByte_short first) (fun _ nests => by contradiction) read
  | succ depth ih =>
    cases input with
    | nil => contradiction
    | cons first others =>
      refine readBody_short (Head.ofByte_short first) (fun reader nests => ?_) read
      obtain rfl := Option.some.inj nests
      exact fun _ _ _ => ih

end Pack
end TenantQueue
