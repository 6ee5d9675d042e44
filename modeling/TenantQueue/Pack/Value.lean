import TenantQueue.Bytes

/-! Values of the MessagePack format. Numbers keep the family of the form in which they
were written, since a reader may ask for it; texts are bytes, which need not be UTF-8. -/
namespace TenantQueue.Pack

inductive Value where
  | nil
  | bool (value : Bool)
  | unsigned (value : Nat)
  | signed (value : Int)
  | single (bits : UInt32)
  | double (bits : UInt64)
  | text (bytes : Bytes)
  | binary (bytes : Bytes)
  | array (items : List Value)
  | map (entries : List (Value × Value))
  | extension (kind : UInt8) (bytes : Bytes)
  deriving Inhabited

namespace Value

/-- The number that an integer of either family stands for. -/
def integer? : Value → Option Int
  | .unsigned value => some value
  | .signed value => some value
  | _ => none

def int64? (value : Value) : Option Int64 := do
  let number ← value.integer?
  if -0x8000000000000000 ≤ number ∧ number < 0x8000000000000000 then some (Int64.ofInt number) else none

def uint32? (value : Value) : Option UInt32 := do
  let number ← value.integer?
  if 0 ≤ number ∧ number < 0x100000000 then some (UInt32.ofNat number.toNat) else none

def byte? (value : Value) : Option UInt8 := do
  let number ← value.integer?
  if 0 ≤ number ∧ number < 0x100 then some (UInt8.ofNat number.toNat) else none

/-- A text in UTF-8, or binary data that is one. -/
def string? : Value → Option String
  | .text bytes => Bytes.toText? bytes
  | .binary bytes => Bytes.toText? bytes
  | _ => none

/-- An array of numbers below 256, or binary data. -/
def bytes? : Value → Option Bytes
  | .array items => items.mapM byte?
  | .binary bytes => some bytes
  | _ => none

end Value
end TenantQueue.Pack
