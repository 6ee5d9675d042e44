import TenantQueue.Double.Basic

/-! Reading a double from its decimal text: digits with an optional point and an optional
exponent, or a word for infinity or for no number, after an optional sign. -/
namespace TenantQueue.Double

private def valueOf (digits : List Char) : Nat :=
  digits.foldl (fun value digit => value * 10 + (digit.toNat - 48)) 0

private def exponent? : List Char → Option Int
  | [] => some 0
  | letter :: rest =>
    if letter ≠ 'e' then none
    else
      let (negative, digits) := match rest with
        | '-' :: digits => (true, digits)
        | '+' :: digits => (false, digits)
        | digits => (false, digits)
      if digits.isEmpty || !digits.all Char.isDigit then none
      else some (if negative then -(valueOf digits : Int) else valueOf digits)

/-- The double nearest to `digits` times a power of ten. Powers far beyond the range of doubles
are not worked out. -/
private def ofDecimal (negative : Bool) (digits : Nat) (power : Int) : Double :=
  let size : Int := power + (Nat.repr digits).length
  if digits = 0 || size < -400 then ofMagnitude negative 0
  else if 400 < size then infinity negative
  else if 0 ≤ power then ofRatio negative (digits * Nat.pow 10 power.toNat) 1
  else ofRatio negative digits (Nat.pow 10 (-power).toNat)

private def unsigned? (negative : Bool) (text : List Char) : Option Double :=
  if text = "inf".toList || text = "infinity".toList then some (infinity negative)
  else if text = "nan".toList then some nan
  else
    let whole := text.takeWhile Char.isDigit
    let behind := text.dropWhile Char.isDigit
    let (fraction, behind) := match behind with
      | '.' :: rest => (rest.takeWhile Char.isDigit, rest.dropWhile Char.isDigit)
      | rest => ([], rest)
    if whole.isEmpty && fraction.isEmpty then none
    else (exponent? behind).map fun exponent =>
      ofDecimal negative (valueOf (whole ++ fraction)) (exponent - fraction.length)

def ofText? (text : String) : Option Double :=
  match text.toList.map Char.toLower with
  | '-' :: rest => unsigned? true rest
  | '+' :: rest => unsigned? false rest
  | rest => unsigned? false rest

end TenantQueue.Double
