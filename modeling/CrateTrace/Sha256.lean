import CrateTrace.Bytes
import CrateTrace.Text.Hex

/-!
# SHA-256

The digest of FIPS 180-4 over words of 32 bits.
-/

namespace CrateTrace.Sha256

/-! ## Constants -/

def roundConstants : Array UInt32 := #[
  0x428a2f98, 0x71374491, 0xb5c0fbcf, 0xe9b5dba5, 0x3956c25b, 0x59f111f1, 0x923f82a4, 0xab1c5ed5,
  0xd807aa98, 0x12835b01, 0x243185be, 0x550c7dc3, 0x72be5d74, 0x80deb1fe, 0x9bdc06a7, 0xc19bf174,
  0xe49b69c1, 0xefbe4786, 0x0fc19dc6, 0x240ca1cc, 0x2de92c6f, 0x4a7484aa, 0x5cb0a9dc, 0x76f988da,
  0x983e5152, 0xa831c66d, 0xb00327c8, 0xbf597fc7, 0xc6e00bf3, 0xd5a79147, 0x06ca6351, 0x14292967,
  0x27b70a85, 0x2e1b2138, 0x4d2c6dfc, 0x53380d13, 0x650a7354, 0x766a0abb, 0x81c2c92e, 0x92722c85,
  0xa2bfe8a1, 0xa81a664b, 0xc24b8b70, 0xc76c51a3, 0xd192e819, 0xd6990624, 0xf40e3585, 0x106aa070,
  0x19a4c116, 0x1e376c08, 0x2748774c, 0x34b0bcb5, 0x391c0cb3, 0x4ed8aa4a, 0x5b9cca4f, 0x682e6ff3,
  0x748f82ee, 0x78a5636f, 0x84c87814, 0x8cc70208, 0x90befffa, 0xa4506ceb, 0xbef9a3f7, 0xc67178f2]

/-- The eight words that a digest is made of. -/
structure State where
  a : UInt32
  b : UInt32
  c : UInt32
  d : UInt32
  e : UInt32
  f : UInt32
  g : UInt32
  h : UInt32
deriving DecidableEq, Repr

def State.initial : State :=
  ⟨0x6a09e667, 0xbb67ae85, 0x3c6ef372, 0xa54ff53a, 0x510e527f, 0x9b05688c, 0x1f83d9ab, 0x5be0cd19⟩

/-! ## Rounds -/

def rotateRight (x n : UInt32) : UInt32 := (x >>> n) ||| (x <<< (32 - n))

def State.round (s : State) (constant word : UInt32) : State :=
  let sum1 := rotateRight s.e 6 ^^^ rotateRight s.e 11 ^^^ rotateRight s.e 25
  let choice := (s.e &&& s.f) ^^^ (~~~s.e &&& s.g)
  let t1 := s.h + sum1 + choice + constant + word
  let sum0 := rotateRight s.a 2 ^^^ rotateRight s.a 13 ^^^ rotateRight s.a 22
  let majority := (s.a &&& s.b) ^^^ (s.a &&& s.c) ^^^ (s.b &&& s.c)
  ⟨t1 + (sum0 + majority), s.a, s.b, s.c, s.d + t1, s.e, s.f, s.g⟩

/-- Word by word sums. -/
def State.add (s t : State) : State :=
  ⟨s.a + t.a, s.b + t.b, s.c + t.c, s.d + t.d, s.e + t.e, s.f + t.f, s.g + t.g, s.h + t.h⟩

/-- The next word of a schedule, from those sixteen, fifteen, seven and two places before. -/
def nextWord (schedule : Array UInt32) : UInt32 :=
  let back (n : Nat) : UInt32 := schedule.getD (schedule.size - n) 0
  let low := rotateRight (back 15) 7 ^^^ rotateRight (back 15) 18 ^^^ (back 15 >>> 3)
  let high := rotateRight (back 2) 17 ^^^ rotateRight (back 2) 19 ^^^ (back 2 >>> 10)
  back 16 + low + back 7 + high

/-- The sixteen words of a block and the forty-eight that follow from them. -/
def schedule (block : Array UInt32) : Array UInt32 :=
  (List.range 48).foldl (fun words _ => words.push (nextWord words)) block

def State.compress (s : State) (block : Array UInt32) : State :=
  let words := schedule block
  s.add <| (List.range 64).foldl
    (fun t i => t.round (roundConstants.getD i 0) (words.getD i 0)) s

/-! ## Blocks -/

/-- A message behind which a one bit, zeros and the length in bits fill up the last block. -/
def padded (message : ByteArray) : ByteArray :=
  let zeros := (119 - message.size % 64) % 64
  let withZeros := (List.range zeros).foldl (fun bytes _ => bytes.push 0) (message.push 0x80)
  (List.range 8).foldl
    (fun bytes i => bytes.push (UInt8.ofNat ((8 * message.size) >>> (8 * (7 - i))))) withZeros

def wordAt (bytes : ByteArray) (offset : Nat) : UInt32 :=
  UInt32.ofNat (Bytes.bigEndian bytes offset 4)

def blockAt (bytes : ByteArray) (offset : Nat) : Array UInt32 :=
  ((List.range 16).map fun i => wordAt bytes (offset + 4 * i)).toArray

def digest (message : ByteArray) : State :=
  let bytes := padded message
  (List.range (bytes.size / 64)).foldl (fun s i => s.compress (blockAt bytes (64 * i))) .initial

/-! ## Text -/

def State.text (s : State) : String :=
  String.join ([s.a, s.b, s.c, s.d, s.e, s.f, s.g, s.h].map fun word => Text.hexPadded 8 word.toNat)

/-- The digest of a message in hex digits. -/
def hex (message : ByteArray) : String := (digest message).text

end CrateTrace.Sha256
