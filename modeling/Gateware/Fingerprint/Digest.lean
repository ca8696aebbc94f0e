import Gateware.Fingerprint.Mixing
import Gateware.Number.Digits

/-!
# Content fingerprints

A fingerprint is the XXH3 hash with 128 bits of a sequence of bytes, with the fixed key and no
seed.  The hash treats inputs by length: empty, up to 3, 8, 16, 128 and 240 bytes, and longer ones,
which are consumed in stripes of 64 bytes into eight running sums.

* `Fingerprint.ofBytes`, `Fingerprint.ofText` — the fingerprint of bytes, of a text in UTF-8.
* `Fingerprint.hex` — its 32 hexadecimal digits; `Fingerprint.short` the first eight of them.
* `Fingerprint.toNat` — its value as one number.
-/

namespace Gateware

/-- A hash of 128 bits. -/
structure Fingerprint where
  high : UInt64
  low : UInt64
deriving Repr, DecidableEq

namespace Fingerprint

/-! ## Short inputs -/

/-- Up to three bytes: all of them, with the length, in one word. -/
def ofTiny (bytes : ByteArray) : Fingerprint :=
  let n := bytes.size
  let first := (byteAt bytes 0).toUInt64
  let middle := (byteAt bytes (n / 2)).toUInt64
  let last := (byteAt bytes (n - 1)).toUInt64
  let low := first <<< 16 ||| middle <<< 24 ||| last ||| n.toUInt64 <<< 8
  let high := rotate32 (swap32 low) 13
  { high := avalancheShort (high ^^^ (word32At key 8 ^^^ word32At key 12))
    low := avalancheShort (low ^^^ (word32At key 0 ^^^ word32At key 4)) }

/-- Four to eight bytes: the first and the last four, which may overlap. -/
def ofSmall (bytes : ByteArray) : Fingerprint :=
  let n := bytes.size
  let input := word32At bytes 0 + word32At bytes (n - 4) <<< 32
  let (h, l) := wideProduct (input ^^^ keyPair 16) (prime64a + n.toUInt64 <<< 2)
  let h := h + l <<< 1
  let l := l ^^^ h >>> 3
  { high := avalanche h, low := xorShift (xorShift l 35 * mixerB) 28 }

/-- Nine to sixteen bytes: the first and the last eight, which may overlap. -/
def ofMedium (bytes : ByteArray) : Fingerprint :=
  let n := bytes.size
  let inputLow := word64At bytes 0
  let inputHigh := word64At bytes (n - 8)
  let (h, l) := wideProduct (inputLow ^^^ inputHigh ^^^ keyPair 32) prime64a
  let l := l + (n - 1).toUInt64 <<< 54
  let keyed := inputHigh ^^^ keyPair 48
  let h := h + keyed + lowHalf keyed * (prime32b - 1)
  let l := l ^^^ swap64 h
  let (h₂, l₂) := wideProduct l prime64b
  { high := avalanche (h₂ + h * prime64b), low := avalanche l₂ }

/-! ## Inputs of up to 240 bytes -/

/-- Mixes two groups of sixteen input bytes, at `i` and `j`, into a pair of running sums. -/
def mix32 (bytes : ByteArray) (acc : Fingerprint) (i j k : Nat) : Fingerprint :=
  { low := (acc.low + mix16 bytes i k) ^^^ pairSum bytes j
    high := (acc.high + mix16 bytes j (k + 16)) ^^^ pairSum bytes i }

/-- Finishes a pair of running sums with the length of the input. -/
def finishPair (length : Nat) (acc : Fingerprint) : Fingerprint :=
  { low := avalanche (acc.low + acc.high)
    high := 0 - avalanche
      (acc.low * prime64a + acc.high * prime64d + length.toUInt64 * prime64b) }

/-- Seventeen to 128 bytes: groups from both ends towards the middle, the middle first. -/
def ofMiddling (bytes : ByteArray) : Fingerprint :=
  let n := bytes.size
  let rounds := (n - 1) / 32
  let start : Fingerprint := { low := n.toUInt64 * prime64a, high := 0 }
  let acc := (List.range (rounds + 1)).reverse.foldl
    (fun acc r => mix32 bytes acc (16 * r) (n - 16 * (r + 1)) (32 * r)) start
  finishPair n acc

/-- 129 to 240 bytes: four groups, a finishing step, the other whole groups, and the last one. -/
def ofLarge (bytes : ByteArray) : Fingerprint :=
  let n := bytes.size
  let start : Fingerprint := { low := n.toUInt64 * prime64a, high := 0 }
  let acc := (List.range 4).foldl
    (fun acc r => mix32 bytes acc (32 * r) (32 * r + 16) (32 * r)) start
  let acc : Fingerprint := { low := avalanche acc.low, high := avalanche acc.high }
  let acc := (List.range (n / 32 - 4)).foldl
    (fun acc r => mix32 bytes acc (32 * (r + 4)) (32 * (r + 4) + 16) (32 * r + 3)) acc
  let acc := mix32 bytes acc (n - 16) (n - 32) 103
  finishPair n acc

/-! ## Long inputs -/

/-- Eight running sums. -/
abbrev Sums := Vector UInt64 8

/-- The sums before any input. -/
def Sums.initial : Sums :=
  #v[prime32c, prime64a, prime64b, prime64c, prime64d, prime32b, prime64e, prime32a]

/-- Adds a stripe of 64 bytes at `i` to the sums, with the key from `k` on.  A lane receives the
product of the halves of its keyed word and the plain word of its neighbour. -/
def Sums.addStripe (bytes : ByteArray) (i k : Nat) (sums : Sums) : Sums :=
  Vector.ofFn fun lane =>
    let own := word64At bytes (i + 8 * lane.val) ^^^ keyWord (k + 8 * lane.val)
    let neighbour := word64At bytes (i + 8 * (lane.val ^^^ 1))
    sums[lane] + neighbour + lowHalf own * (own >>> 32)

/-- Scrambles the sums after a block of sixteen stripes. -/
def Sums.scramble (sums : Sums) : Sums :=
  Vector.ofFn fun lane =>
    (xorShift sums[lane] 47 ^^^ keyWord (128 + 8 * lane.val)) * prime32a

/-- Adds `count` stripes from position `i` on. -/
def Sums.addStripes (bytes : ByteArray) (i count : Nat) (sums : Sums) : Sums :=
  (List.range count).foldl (fun s r => s.addStripe bytes (i + 64 * r) (8 * r)) sums

/-- Merges the sums into one word, with the key from `k` on. -/
def Sums.merge (sums : Sums) (k : Nat) (start : UInt64) : UInt64 :=
  avalanche (start
    + foldProduct (sums[0] ^^^ keyWord k) (sums[1] ^^^ keyWord (k + 8))
    + foldProduct (sums[2] ^^^ keyWord (k + 16)) (sums[3] ^^^ keyWord (k + 24))
    + foldProduct (sums[4] ^^^ keyWord (k + 32)) (sums[5] ^^^ keyWord (k + 40))
    + foldProduct (sums[6] ^^^ keyWord (k + 48)) (sums[7] ^^^ keyWord (k + 56)))

/-- More than 240 bytes: blocks of sixteen stripes, the stripes left over, and the last 64 bytes
once more. -/
def ofLong (bytes : ByteArray) : Fingerprint :=
  let n := bytes.size
  let blocks := (n - 1) / 1024
  let sums := (List.range blocks).foldl
    (fun s b => (s.addStripes bytes (1024 * b) 16).scramble) Sums.initial
  let sums := sums.addStripes bytes (1024 * blocks) ((n - 1 - 1024 * blocks) / 64)
  let sums := sums.addStripe bytes (n - 64) 121
  { low := sums.merge 11 (n.toUInt64 * prime64a)
    high := sums.merge 117 (~~~ (n.toUInt64 * prime64b)) }

/-! ## Fingerprints -/

/-- The fingerprint of no bytes at all. -/
def empty : Fingerprint :=
  { high := avalancheShort (keyPair 80), low := avalancheShort (keyPair 64) }

/-- The fingerprint of a sequence of bytes. -/
def ofBytes (bytes : ByteArray) : Fingerprint :=
  let n := bytes.size
  if n == 0 then empty
  else if n ≤ 3 then ofTiny bytes
  else if n ≤ 8 then ofSmall bytes
  else if n ≤ 16 then ofMedium bytes
  else if n ≤ 128 then ofMiddling bytes
  else if n ≤ 240 then ofLarge bytes
  else ofLong bytes

/-- The fingerprint of a text, taken of its UTF-8 bytes. -/
def ofText (s : String) : Fingerprint := ofBytes s.toUTF8

/-- The fingerprint as one number of 128 bits. -/
def toNat (f : Fingerprint) : Nat := f.high.toNat * 0x10000000000000000 + f.low.toNat

/-- All 32 hexadecimal digits. -/
def hex (f : Fingerprint) : String := hexDigits 32 f.toNat

/-- The first eight hexadecimal digits, enough to tell artifacts apart by eye. -/
def short (f : Fingerprint) : String := hexDigits 8 (f.toNat >>> 96)

end Fingerprint

end Gateware
