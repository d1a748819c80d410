/-!
# Bytes of files
-/

namespace CrateTrace.Bytes

/-- The byte at a place, or zero behind the end. -/
def byteAt (bytes : ByteArray) (i : Nat) : UInt8 := if h : i < bytes.size then bytes[i] else 0

/-- The number in `width` bytes from a place on, the lowest byte first. -/
def littleEndian (bytes : ByteArray) (offset width : Nat) : Nat :=
  (List.range width).foldr (fun i n => 256 * n + (byteAt bytes (offset + i)).toNat) 0

/-- The number in `width` bytes from a place on, the highest byte first. -/
def bigEndian (bytes : ByteArray) (offset width : Nat) : Nat :=
  (List.range width).foldl (fun n i => 256 * n + (byteAt bytes (offset + i)).toNat) 0

end CrateTrace.Bytes
