import TenantQueue.Bytes

/-! Digests of messages. SHA-256 absorbs the message byte by byte and compresses each 64 bytes
into the eight words of its state; FNV-1a keeps a single word of 64 bits. -/
namespace TenantQueue.Digest

private def roundConstants : Array UInt32 := #[
  0x428a2f98, 0x71374491, 0xb5c0fbcf, 0xe9b5dba5, 0x3956c25b, 0x59f111f1, 0x923f82a4, 0xab1c5ed5,
  0xd807aa98, 0x12835b01, 0x243185be, 0x550c7dc3, 0x72be5d74, 0x80deb1fe, 0x9bdc06a7, 0xc19bf174,
  0xe49b69c1, 0xefbe4786, 0x0fc19dc6, 0x240ca1cc, 0x2de92c6f, 0x4a7484aa, 0x5cb0a9dc, 0x76f988da,
  0x983e5152, 0xa831c66d, 0xb00327c8, 0xbf597fc7, 0xc6e00bf3, 0xd5a79147, 0x06ca6351, 0x14292967,
  0x27b70a85, 0x2e1b2138, 0x4d2c6dfc, 0x53380d13, 0x650a7354, 0x766a0abb, 0x81c2c92e, 0x92722c85,
  0xa2bfe8a1, 0xa81a664b, 0xc24b8b70, 0xc76c51a3, 0xd192e819, 0xd6990624, 0xf40e3585, 0x106aa070,
  0x19a4c116, 0x1e376c08, 0x2748774c, 0x34b0bcb5, 0x391c0cb3, 0x4ed8aa4a, 0x5b9cca4f, 0x682e6ff3,
  0x748f82ee, 0x78a5636f, 0x84c87814, 0x8cc70208, 0x90befffa, 0xa4506ceb, 0xbef9a3f7, 0xc67178f2]

structure Words where
  a : UInt32
  b : UInt32
  c : UInt32
  d : UInt32
  e : UInt32
  f : UInt32
  g : UInt32
  h : UInt32

private def initial : Words :=
  ⟨0x6a09e667, 0xbb67ae85, 0x3c6ef372, 0xa54ff53a, 0x510e527f, 0x9b05688c, 0x1f83d9ab, 0x5be0cd19⟩

private def rotate (word : UInt32) (count : UInt32) : UInt32 :=
  word >>> count ||| word <<< (32 - count)

private def word (block : Array UInt8) (index : Nat) : UInt32 :=
  let byte (offset : Nat) : UInt32 := (block.getD (4 * index + offset) 0).toUInt32
  byte 0 <<< 24 ||| byte 1 <<< 16 ||| byte 2 <<< 8 ||| byte 3

private def schedule (block : Array UInt8) : Array UInt32 :=
  let first := (Array.range 16).map (word block)
  (List.range 48).foldl (fun words index =>
    let near := words.getD (index + 14) 0
    let far := words.getD (index + 1) 0
    let small0 := rotate far 7 ^^^ rotate far 18 ^^^ far >>> 3
    let small1 := rotate near 17 ^^^ rotate near 19 ^^^ near >>> 10
    words.push (words.getD index 0 + small0 + words.getD (index + 9) 0 + small1)) first

private def mix (w : Words) (message constant : UInt32) : Words :=
  let big1 := rotate w.e 6 ^^^ rotate w.e 11 ^^^ rotate w.e 25
  let choice := (w.e &&& w.f) ^^^ (~~~w.e &&& w.g)
  let first := w.h + big1 + choice + constant + message
  let big0 := rotate w.a 2 ^^^ rotate w.a 13 ^^^ rotate w.a 22
  let majority := (w.a &&& w.b) ^^^ (w.a &&& w.c) ^^^ (w.b &&& w.c)
  ⟨first + (big0 + majority), w.a, w.b, w.c, w.d + first, w.e, w.f, w.g⟩

private def compress (state : Words) (block : Array UInt8) : Words :=
  let words := schedule block
  let mixed := (List.range 64).foldl
    (fun w index => mix w (words.getD index 0) (roundConstants.getD index 0)) state
  ⟨state.a + mixed.a, state.b + mixed.b, state.c + mixed.c, state.d + mixed.d,
    state.e + mixed.e, state.f + mixed.f, state.g + mixed.g, state.h + mixed.h⟩

structure Absorber where
  state : Words
  block : Array UInt8

private def Absorber.absorb (absorber : Absorber) (byte : UInt8) : Absorber :=
  let block := absorber.block.push byte
  if block.size = 64 then ⟨compress absorber.state block, #[]⟩ else ⟨absorber.state, block⟩

/-- A one bit, zeros, and the length of the message in bits fill the last block. -/
private def padding (length : Nat) : Bytes :=
  0x80 :: List.replicate ((119 - length % 64) % 64) 0 ++ Bytes.ofNat 8 (8 * length)

def sha256 (message : Bytes) : Bytes :=
  let absorbed := message.foldl Absorber.absorb ⟨initial, #[]⟩
  let state := ((padding message.length).foldl Absorber.absorb absorbed).state
  [state.a, state.b, state.c, state.d, state.e, state.f, state.g, state.h].flatMap
    fun word => Bytes.ofNat 4 word.toNat

theorem length_sha256 (message : Bytes) : (sha256 message).length = 32 := by
  simp only [sha256, List.flatMap_cons, List.flatMap_nil, List.length_append, Bytes.length_ofNat,
    List.length_nil]

/-- Each byte is mixed into the word before the word is multiplied. -/
def fnv1a (message : Bytes) : UInt64 :=
  message.foldl (fun word byte => (word ^^^ byte.toUInt64) * 0x100000001b3) 0xcbf29ce484222325

end TenantQueue.Digest
