import TenantQueue.Instant.Basic
import TenantQueue.Text.Blank

/-! Reading the text of an instant. White space may stand before each number and
each separator of date and time, and around the zone. -/
namespace TenantQueue.Instant
open Calendar Text

abbrev Rest := List Char

def digitsValue (digits : List Char) : Nat :=
  digits.foldl (fun value digit => value * 10 + (digit.toNat - 48)) 0

def readNumber (most : Nat) (text : Rest) : Option (Nat × Rest) :=
  let digits := (text.take most).takeWhile Char.isDigit
  if digits.isEmpty then none else some (digitsValue digits, text.drop digits.length)

/-- One to four digits, or a sign and any number of digits. -/
def readYear : Rest → Option (Int × Rest)
  | '-' :: text => (readNumber text.length text).map fun (value, rest) => (-(value : Int), rest)
  | '+' :: text => (readNumber text.length text).map fun (value, rest) => ((value : Int), rest)
  | text => (readNumber 4 text).map fun (value, rest) => ((value : Int), rest)

def readSign (sign : Char) : Rest → Option Rest
  | [] => none
  | first :: rest => if first = sign then some rest else none

def readNext (sign : Char) (text : Rest) : Option (Nat × Rest) := do
  let rest ← readSign sign (skipBlanks text)
  readNumber 2 (skipBlanks rest)

/-- Nanoseconds after a point; digits beyond the ninth do not count. -/
def readFraction : Rest → Option (Nat × Rest)
  | '.' :: text =>
    let digits := (text.take 9).takeWhile Char.isDigit
    if digits.isEmpty then none
    else
      some (digitsValue digits * Nat.pow 10 (9 - digits.length),
        (text.drop digits.length).dropWhile Char.isDigit)
  | text => some (0, text)

/-- Two digits of minutes below sixty, after any run of colons and white space. -/
def readZoneMinutes (text : Rest) : Option (Nat × Rest) :=
  match text.dropWhile fun character => character == ':' || isBlank character with
  | tens :: ones :: rest =>
    if tens.isDigit ∧ ones.isDigit ∧ tens ≤ '5' then some (digitsValue [tens, ones], rest) else none
  | _ => none

def readOffset (text : Rest) : Option (Nat × Rest) :=
  match text with
  | tens :: ones :: rest =>
    if tens.isDigit ∧ ones.isDigit then do
      let (minutes, rest) ← readZoneMinutes rest
      let offset := digitsValue [tens, ones] * 3600 + minutes * 60
      if offset < 86400 then some (offset, rest) else none
    else none
  | _ => none

private def namesUniversal (first second third : Char) : Bool :=
  (first == 'U' || first == 'u') && (second == 'T' || second == 't') &&
    (third == 'C' || third == 'c')

def readZone (text : Rest) : Option (Int × Rest) :=
  match text with
  | 'Z' :: rest => some (0, rest)
  | 'z' :: rest => some (0, rest)
  | '+' :: rest => (readOffset rest).map fun (offset, rest) => ((offset : Int), rest)
  | '-' :: rest => (readOffset rest).map fun (offset, rest) => (-(offset : Int), rest)
  | '−' :: rest => (readOffset rest).map fun (offset, rest) => (-(offset : Int), rest)
  | first :: second :: third :: rest =>
    if namesUniversal first second third then some (0, rest) else none
  | _ => none

/-- The instant of a date, a time of day and an offset. Second sixty is the leap second of its
minute. -/
def ofParts? (date : Date) (hour minute second nanos : Nat) (offset : Int) : Option Instant :=
  if date.IsValid ∧ -262143 ≤ date.year ∧ date.year ≤ 262142 ∧
      hour < 24 ∧ minute < 60 ∧ second ≤ 60 then
    let ofMinute := if second = 60 then 59 else second
    let seconds := dayNumber date * 86400 + (hour * 3600 + minute * 60 + ofMinute : Nat) - offset
    if earliest ≤ seconds ∧ seconds ≤ latest then
      some ⟨seconds, if second = 60 then nanos + 1000000000 else nanos⟩
    else none
  else none

def ofCharacters? (text : List Char) : Option Instant := do
  let (year, text) ← readYear (skipBlanks text)
  let (month, text) ← readNext '-' text
  let (day, text) ← readNext '-' text
  let text ← match text with
    | 'T' :: rest => some rest
    | 't' :: rest => some rest
    | ' ' :: rest => some rest
    | _ => none
  let (hour, text) ← readNumber 2 (skipBlanks text)
  let (minute, text) ← readNext ':' text
  let (second, text) ← readNext ':' text
  let (nanos, text) ← readFraction text
  let (offset, text) ← readZone (skipBlanks text)
  if (skipBlanks text).isEmpty then
    ofParts? ⟨year, month, day⟩ hour minute second nanos offset
  else none

def ofText? (text : String) : Option Instant := ofCharacters? text.toList

end TenantQueue.Instant
