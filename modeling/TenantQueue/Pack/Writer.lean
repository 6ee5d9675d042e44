import TenantQueue.Pack.Value

/-! Writing MessagePack. Each length and each integer takes its shortest form, and what is
not negative is written in the unsigned family. -/
namespace TenantQueue.Pack

def writeUnsigned (value : Nat) : Bytes :=
  if value < 0x80 then [UInt8.ofNat value]
  else if value < 0x100 then 0xcc :: Bytes.ofNat 1 value
  else if value < 0x10000 then 0xcd :: Bytes.ofNat 2 value
  else if value < 0x100000000 then 0xce :: Bytes.ofNat 4 value
  else 0xcf :: Bytes.ofNat 8 value

def complement (width : Nat) (value : Int) : Nat := (value % (Nat.pow 256 width : Nat)).toNat

def writeNegative (value : Int) : Bytes :=
  if -32 ≤ value then Bytes.ofNat 1 (complement 1 value)
  else if -0x80 ≤ value then 0xd0 :: Bytes.ofNat 1 (complement 1 value)
  else if -0x8000 ≤ value then 0xd1 :: Bytes.ofNat 2 (complement 2 value)
  else if -0x80000000 ≤ value then 0xd2 :: Bytes.ofNat 4 (complement 4 value)
  else 0xd3 :: Bytes.ofNat 8 (complement 8 value)

def writeInteger (value : Int) : Bytes :=
  if 0 ≤ value then writeUnsigned value.toNat else writeNegative value

def writeDouble (bits : UInt64) : Bytes := 0xcb :: Bytes.ofNat 8 bits.toNat

def textHead (length : Nat) : Bytes :=
  if length < 0x20 then [UInt8.ofNat (0xa0 + length)]
  else if length < 0x100 then 0xd9 :: Bytes.ofNat 1 length
  else if length < 0x10000 then 0xda :: Bytes.ofNat 2 length
  else 0xdb :: Bytes.ofNat 4 length

def writeText (text : String) : Bytes :=
  let bytes := Bytes.ofText text
  textHead bytes.length ++ bytes

def arrayHead (length : Nat) : Bytes :=
  if length < 0x10 then [UInt8.ofNat (0x90 + length)]
  else if length < 0x10000 then 0xdc :: Bytes.ofNat 2 length
  else 0xdd :: Bytes.ofNat 4 length

def mapHead (length : Nat) : Bytes :=
  if length < 0x10 then [UInt8.ofNat (0x80 + length)]
  else if length < 0x10000 then 0xde :: Bytes.ofNat 2 length
  else 0xdf :: Bytes.ofNat 4 length

end TenantQueue.Pack
