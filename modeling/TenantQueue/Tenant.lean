/-! Tenants are numbered, and known by the decimal text of their numbers. -/
namespace TenantQueue

structure Tenant where
  number : Int64
  deriving DecidableEq, Inhabited

namespace Tenant

def ofInt (number : Int) : Tenant := ⟨Int64.ofInt number⟩

def toInt (tenant : Tenant) : Int := tenant.number.toInt

def name (tenant : Tenant) : String := Int.repr tenant.toInt

def digits? (digits : List Char) : Option Nat :=
  if digits.isEmpty || !digits.all Char.isDigit then none
  else some (digits.foldl (fun value digit => value * 10 + (digit.toNat - 48)) 0)

def signed? : List Char → Option Int
  | '-' :: digits => (digits? digits).map fun value => -(value : Int)
  | '+' :: digits => (digits? digits).map fun value => (value : Int)
  | digits => (digits? digits).map fun value => (value : Int)

/-- The tenant whose number stands in a text, within 64 signed bits. -/
def ofName? (name : String) : Option Tenant := do
  let number ← signed? name.toList
  if -0x8000000000000000 ≤ number ∧ number < 0x8000000000000000 then some (ofInt number) else none

end Tenant
end TenantQueue
