/-!
# Word mixing

The arithmetic under the 128-bit content fingerprint: words of 64 bits read from bytes in little
endian order, the fixed key of 192 bytes, full products of two words, and the two finishing
functions that spread every input bit over the whole word.  All arithmetic on words wraps.
-/

namespace Gateware.Fingerprint

/-! ## Words in byte arrays -/

/-- The byte at a position; past the end it is zero. -/
def byteAt (bytes : ByteArray) (i : Nat) : UInt8 :=
  if h : i < bytes.size then bytes[i] else 0

/-- The word of 32 bits that starts at a position, least significant byte first. -/
def word32At (bytes : ByteArray) (i : Nat) : UInt64 :=
  (byteAt bytes i).toUInt64 ||| (byteAt bytes (i + 1)).toUInt64 <<< 8
    ||| (byteAt bytes (i + 2)).toUInt64 <<< 16 ||| (byteAt bytes (i + 3)).toUInt64 <<< 24

/-- The word of 64 bits that starts at a position, least significant byte first. -/
def word64At (bytes : ByteArray) (i : Nat) : UInt64 :=
  word32At bytes i ||| word32At bytes (i + 4) <<< 32

/-- The low half of a word. -/
def lowHalf (x : UInt64) : UInt64 := x &&& 0xFFFFFFFF

/-- The bytes of the low half of a word in reverse order. -/
def swap32 (x : UInt64) : UInt64 :=
  let byte : UInt64 := 0xFF
  (x &&& byte) <<< 24 ||| ((x >>> 8) &&& byte) <<< 16 ||| ((x >>> 16) &&& byte) <<< 8
    ||| ((x >>> 24) &&& byte)

/-- The bytes of a word in reverse order. -/
def swap64 (x : UInt64) : UInt64 :=
  swap32 (lowHalf x) <<< 32 ||| swap32 (x >>> 32)

/-- The low half of a word rotated to the left within 32 bits. -/
def rotate32 (x : UInt64) (n : UInt64) : UInt64 :=
  lowHalf (x <<< n) ||| lowHalf x >>> (32 - n)

/-! ## Constants -/

def prime32a : UInt64 := 0x9E3779B1
def prime32b : UInt64 := 0x85EBCA77
def prime32c : UInt64 := 0xC2B2AE3D
def prime64a : UInt64 := 0x9E3779B185EBCA87
def prime64b : UInt64 := 0xC2B2AE3D27D4EB4F
def prime64c : UInt64 := 0x165667B19E3779F9
def prime64d : UInt64 := 0x85EBCA77C2B2AE63
def prime64e : UInt64 := 0x27D4EB2F165667C5
def mixerA : UInt64 := 0x165667919E3779F9
def mixerB : UInt64 := 0x9FB21C651E98DF25

/-- The fixed key from which every mixing step takes its words. -/
def key : ByteArray := ⟨#[
  0xb8, 0xfe, 0x6c, 0x39, 0x23, 0xa4, 0x4b, 0xbe, 0x7c, 0x01, 0x81, 0x2c, 0xf7, 0x21, 0xad, 0x1c,
  0xde, 0xd4, 0x6d, 0xe9, 0x83, 0x90, 0x97, 0xdb, 0x72, 0x40, 0xa4, 0xa4, 0xb7, 0xb3, 0x67, 0x1f,
  0xcb, 0x79, 0xe6, 0x4e, 0xcc, 0xc0, 0xe5, 0x78, 0x82, 0x5a, 0xd0, 0x7d, 0xcc, 0xff, 0x72, 0x21,
  0xb8, 0x08, 0x46, 0x74, 0xf7, 0x43, 0x24, 0x8e, 0xe0, 0x35, 0x90, 0xe6, 0x81, 0x3a, 0x26, 0x4c,
  0x3c, 0x28, 0x52, 0xbb, 0x91, 0xc3, 0x00, 0xcb, 0x88, 0xd0, 0x65, 0x8b, 0x1b, 0x53, 0x2e, 0xa3,
  0x71, 0x64, 0x48, 0x97, 0xa2, 0x0d, 0xf9, 0x4e, 0x38, 0x19, 0xef, 0x46, 0xa9, 0xde, 0xac, 0xd8,
  0xa8, 0xfa, 0x76, 0x3f, 0xe3, 0x9c, 0x34, 0x3f, 0xf9, 0xdc, 0xbb, 0xc7, 0xc7, 0x0b, 0x4f, 0x1d,
  0x8a, 0x51, 0xe0, 0x4b, 0xcd, 0xb4, 0x59, 0x31, 0xc8, 0x9f, 0x7e, 0xc9, 0xd9, 0x78, 0x73, 0x64,
  0xea, 0xc5, 0xac, 0x83, 0x34, 0xd3, 0xeb, 0xc3, 0xc5, 0x81, 0xa0, 0xff, 0xfa, 0x13, 0x63, 0xeb,
  0x17, 0x0d, 0xdd, 0x51, 0xb7, 0xf0, 0xda, 0x49, 0xd3, 0x16, 0x55, 0x26, 0x29, 0xd4, 0x68, 0x9e,
  0x2b, 0x16, 0xbe, 0x58, 0x7d, 0x47, 0xa1, 0xfc, 0x8f, 0xf8, 0xb8, 0xd1, 0x7a, 0xd0, 0x31, 0xce,
  0x45, 0xcb, 0x3a, 0x8f, 0x95, 0x16, 0x04, 0x28, 0xaf, 0xd7, 0xfb, 0xca, 0xbb, 0x4b, 0x40, 0x7e]⟩

/-- A word of the key. -/
def keyWord (i : Nat) : UInt64 := word64At key i

/-- The exclusive or of two neighbouring words of the key. -/
def keyPair (i : Nat) : UInt64 := keyWord i ^^^ keyWord (i + 8)

/-! ## Mixing -/

/-- The product of two words: its high and its low word. -/
def wideProduct (a b : UInt64) : UInt64 × UInt64 :=
  let p := a.toNat * b.toNat
  ((p >>> 64).toUInt64, p.toUInt64)

/-- The exclusive or of the two words of a product. -/
def foldProduct (a b : UInt64) : UInt64 :=
  let (high, low) := wideProduct a b
  high ^^^ low

/-- Folds the high bits of a word into its low ones. -/
def xorShift (x : UInt64) (n : UInt64) : UInt64 := x ^^^ x >>> n

/-- The finishing function of long inputs. -/
def avalanche (x : UInt64) : UInt64 := xorShift (xorShift x 37 * mixerA) 32

/-- The finishing function of the shortest inputs. -/
def avalancheShort (x : UInt64) : UInt64 :=
  xorShift (xorShift (xorShift x 33 * prime64b) 29 * prime64c) 32

/-- Mixes sixteen bytes of input with sixteen bytes of the key. -/
def mix16 (bytes : ByteArray) (i k : Nat) : UInt64 :=
  foldProduct (word64At bytes i ^^^ keyWord k) (word64At bytes (i + 8) ^^^ keyWord (k + 8))

/-- The sum of two neighbouring words of the input. -/
def pairSum (bytes : ByteArray) (i : Nat) : UInt64 := word64At bytes i + word64At bytes (i + 8)

end Gateware.Fingerprint
