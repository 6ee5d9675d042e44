import TenantQueue.Double.Reader
import TenantQueue.Failure
import TenantQueue.Store.Call

/-! Replies of a remote store's server, and what can be read from them. -/
namespace TenantQueue.Remote

inductive Reply where
  | integer (value : Int)
  | null
  | text (value : String)
  | data (bytes : Bytes)
  | array (items : List Reply)
  | refused (reason : String)
  deriving Inhabited

namespace Reply

def ofBytes (bytes : Bytes) : Reply :=
  match Bytes.toText? bytes with
  | some value => .text value
  | none => .data bytes

def text? : Reply → Option String
  | text value => some value
  | integer value => some (Int.repr value)
  | _ => none

def bytes? : Reply → Option Bytes
  | text value => some (Bytes.ofText value)
  | data bytes => some bytes
  | _ => none

/-- Decimal digits after an optional plus sign, within 64 bits. -/
private def natural? (word : String) : Option Nat :=
  let digits := match word.toList with
    | '+' :: digits => digits
    | digits => digits
  let value := digits.foldl (fun value digit => value * 10 + (digit.toNat - 48)) 0
  if digits.isEmpty || !digits.all Char.isDigit || 0x10000000000000000 ≤ value then none else some value

def natural : Reply → Option Nat
  | integer value => if 0 ≤ value then some value.toNat else none
  | text value => natural? value
  | _ => none

def integer? : Reply → Option Int
  | integer value => some value
  | text value => (Tenant.ofName? value).map Tenant.toInt
  | _ => none

def double? : Reply → Option Double
  | integer value => some (Double.ofInt value)
  | text value => Double.ofText? value
  | _ => none

def tenant? (reply : Reply) : Option Tenant := reply.text?.bind Tenant.ofName?

/-- The members of an array. None stand in the place of nothing, and any other reply is its own
only member. -/
def items : Reply → List Reply
  | array items => items
  | null => []
  | reply => [reply]

private def shownByte (byte : UInt8) : List Char :=
  let code := byte.toNat
  if code = 10 then ['\\', 'n']
  else if code = 13 then ['\\', 'r']
  else if code = 9 then ['\\', 't']
  else if code = 0 then ['\\', '0']
  else if code = 34 then ['\\', '"']
  else if code = 92 then ['\\', '\\']
  else if 32 ≤ code ∧ code < 127 then [Char.ofNat code]
  else '\\' :: 'x' :: (Bytes.hex [byte]).toList

mutual

def shown : Reply → String
  | integer value => "Integer(" ++ Int.repr value ++ ")"
  | null => "Null"
  | text value => "String(" ++ Text.quoted value ++ ")"
  | data bytes => "Bytes(b\"" ++ String.ofList (bytes.flatMap shownByte) ++ "\")"
  | array items => "Array([" ++ ", ".intercalate (shownItems items) ++ "])"
  | refused reason => "Error(" ++ Text.quoted reason ++ ")"

def shownItems : List Reply → List String
  | [] => []
  | first :: rest => first.shown :: shownItems rest

end

end Reply
end TenantQueue.Remote
