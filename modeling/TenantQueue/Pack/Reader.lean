import TenantQueue.Pack.Value

/-! Reading MessagePack. A reader gives the value in front and the bytes after it.
Arrays, maps and extensions nest to a limited depth. -/
namespace TenantQueue.Pack

abbrev Reader (α : Type) := Bytes → Option (α × Bytes)

def readBytes (count : Nat) : Reader Bytes := fun input =>
  let taken := input.take count
  if taken.length = count then some (taken, input.drop count) else none

def readNumber (width : Nat) : Reader Nat := fun input =>
  (readBytes width input).map fun (bytes, rest) => (Bytes.toNat bytes, rest)

def readSigned (width : Nat) : Reader Int := fun input =>
  (readNumber width input).map fun (number, rest) =>
    (if 2 * number < Nat.pow 256 width then (number : Int) else number - (Nat.pow 256 width : Nat), rest)

/-- As many values as asked for, in front of those already read, last first. -/
def readMany {α : Type} (read : Reader α) : Nat → List α → Reader (List α)
  | 0, values, input => some (values.reverse, input)
  | count + 1, values, input =>
    match read input with
    | none => none
    | some (value, rest) => readMany read count (value :: values) rest

def readEntry (read : Reader Value) : Reader (Value × Value) := fun input =>
  match read input with
  | none => none
  | some (key, rest) =>
    match read rest with
    | none => none
    | some (value, rest) => some ((key, value), rest)

/-- What a first byte announces: a value that it holds itself, a number still to be read, or
something whose length is known or still to be read. -/
inductive Head where
  | whole (value : Value)
  | unsigned (width : Nat)
  | signed (width : Nat)
  | single
  | double
  | text (lengthWidth : Nat) (length : Nat)
  | binary (lengthWidth : Nat)
  | array (lengthWidth : Nat) (length : Nat)
  | map (lengthWidth : Nat) (length : Nat)
  | extension (lengthWidth : Nat) (length : Nat)
  | reserved

def Head.ofByte (byte : UInt8) : Head :=
  let code := byte.toNat
  if code < 0x80 then .whole (.unsigned code)
  else if code < 0x90 then .map 0 (code - 0x80)
  else if code < 0xa0 then .array 0 (code - 0x90)
  else if code < 0xc0 then .text 0 (code - 0xa0)
  else if 0xe0 ≤ code then .whole (.signed (code - 256))
  else match code with
    | 0xc0 => .whole .nil
    | 0xc2 => .whole (.bool false)
    | 0xc3 => .whole (.bool true)
    | 0xc4 => .binary 1
    | 0xc5 => .binary 2
    | 0xc6 => .binary 4
    | 0xc7 => .extension 1 0
    | 0xc8 => .extension 2 0
    | 0xc9 => .extension 4 0
    | 0xca => .single
    | 0xcb => .double
    | 0xcc => .unsigned 1
    | 0xcd => .unsigned 2
    | 0xce => .unsigned 4
    | 0xcf => .unsigned 8
    | 0xd0 => .signed 1
    | 0xd1 => .signed 2
    | 0xd2 => .signed 4
    | 0xd3 => .signed 8
    | 0xd4 => .extension 0 1
    | 0xd5 => .extension 0 2
    | 0xd6 => .extension 0 4
    | 0xd7 => .extension 0 8
    | 0xd8 => .extension 0 16
    | 0xd9 => .text 1 0
    | 0xda => .text 2 0
    | 0xdb => .text 4 0
    | 0xdc => .array 2 0
    | 0xdd => .array 4 0
    | 0xde => .map 2 0
    | 0xdf => .map 4 0
    | _ => .reserved

def readLength (lengthWidth length : Nat) : Reader Nat :=
  if lengthWidth = 0 then fun input => some (length, input) else readNumber lengthWidth

def readSized (lengthWidth length : Nat) (make : Bytes → Value) : Reader Value := fun input => do
  let (length, rest) ← readLength lengthWidth length input
  let (bytes, rest) ← readBytes length rest
  return (make bytes, rest)

def readExtension (lengthWidth length : Nat) : Reader Value := fun input => do
  let (length, rest) ← readLength lengthWidth length input
  match rest with
  | [] => none
  | kind :: rest =>
    let (bytes, rest) ← readBytes length rest
    return (.extension kind bytes, rest)

/-- What follows a first byte. Without a reader for what lies inside, nothing may nest. -/
def readBody (inside : Option (Reader Value)) (head : Head) : Reader Value := fun input =>
  match head with
  | .whole value => some (value, input)
  | .unsigned width => (readNumber width input).map fun (number, rest) => (.unsigned number, rest)
  | .signed width => (readSigned width input).map fun (number, rest) => (.signed number, rest)
  | .single =>
    (readNumber 4 input).map fun (number, rest) => (.single (UInt32.ofNat number), rest)
  | .double =>
    (readNumber 8 input).map fun (number, rest) => (.double (UInt64.ofNat number), rest)
  | .text lengthWidth length => readSized lengthWidth length .text input
  | .binary lengthWidth => readSized lengthWidth 0 .binary input
  | .array lengthWidth length => do
    let read ← inside
    let (count, rest) ← readLength lengthWidth length input
    let (items, rest) ← readMany read count [] rest
    return (.array items, rest)
  | .map lengthWidth length => do
    let read ← inside
    let (count, rest) ← readLength lengthWidth length input
    let (entries, rest) ← readMany (readEntry read) count [] rest
    return (.map entries, rest)
  | .extension lengthWidth length =>
    if inside.isSome then readExtension lengthWidth length input else none
  | .reserved => none

/-- A value that nests at most to the given depth. -/
def Value.readWithin : Nat → Reader Value
  | 0, first :: rest => readBody none (Head.ofByte first) rest
  | depth + 1, first :: rest => readBody (some (readWithin depth)) (Head.ofByte first) rest
  | _, [] => none

def depthLimit : Nat := 1023

def Value.read : Reader Value := Value.readWithin depthLimit

end TenantQueue.Pack
