-- SUMMARY: The 64-bit XXH3 digest of a payload, with seed zero.

/-!
# Payload digests

Integrity-sensitive arrays are protected by the 64-bit XXH3 digest of their payload. The digest
mixes little-endian words of the payload with words of a fixed secret, by one formula for each range
of lengths. `Digest.ofBytes` is the digest; the sections below hold its arithmetic and its formulas.
-/

namespace SmartCard.Digest

/-! ## Constants -/

def prime32x1 : UInt64 := 0x9E3779B1
def prime32x2 : UInt64 := 0x85EBCA77
def prime32x3 : UInt64 := 0xC2B2AE3D
def prime64x1 : UInt64 := 0x9E3779B185EBCA87
def prime64x2 : UInt64 := 0xC2B2AE3D27D4EB4F
def prime64x3 : UInt64 := 0x165667B19E3779F9
def prime64x4 : UInt64 := 0x85EBCA77C2B2AE63
def prime64x5 : UInt64 := 0x27D4EB2F165667C5
def primeMix1 : UInt64 := 0x165667919E3779F9
def primeMix2 : UInt64 := 0x9FB21C651E98DF25

/-- The bytes of a word, least significant first. -/
def littleEndian (w : UInt64) : List UInt8 :=
  [w.toUInt8, (w >>> 8).toUInt8, (w >>> 16).toUInt8, (w >>> 24).toUInt8,
    (w >>> 32).toUInt8, (w >>> 40).toUInt8, (w >>> 48).toUInt8, (w >>> 56).toUInt8]

/-- The secret of the digest, 192 bytes. -/
def secret : ByteArray :=
  List.toByteArray <| List.flatMap littleEndian
    [0xbe4ba423396cfeb8, 0x1cad21f72c81017c, 0xdb979083e96dd4de, 0x1f67b3b7a4a44072,
      0x78e5c0cc4ee679cb, 0x2172ffcc7dd05a82, 0x8e2443f7744608b8, 0x4c263a81e69035e0,
      0xcb00c391bb52283c, 0xa32e531b8b65d088, 0x4ef90da297486471, 0xd8acdea946ef1938,
      0x3f349ce33f76faa8, 0x1d4f0bc7c7bbdcf9, 0x3159b4cd4be0518a, 0x647378d9c97e9fc8,
      0xc3ebd33483acc5ea, 0xeb6313faffa081c5, 0x49daf0b751dd0d17, 0x9e68d429265516d3,
      0xfca1477d58be162b, 0xce31d07ad1b8f88f, 0x280416958f3acb45, 0x7e404bbbcafbd7af]

/-! ## Words -/

/-- The byte at a position, zero beyond the end. -/
def byteAt (data : ByteArray) (i : Nat) : UInt64 := (data[i]?.getD 0).toUInt64

/-- The four bytes from a position, least significant first. -/
def word32At (data : ByteArray) (i : Nat) : UInt64 :=
  byteAt data i ||| byteAt data (i + 1) <<< 8 ||| byteAt data (i + 2) <<< 16 |||
    byteAt data (i + 3) <<< 24

/-- The eight bytes from a position, least significant first. -/
def word64At (data : ByteArray) (i : Nat) : UInt64 :=
  word32At data i ||| word32At data (i + 4) <<< 32

def rotateLeft (w : UInt64) (n : UInt64) : UInt64 := (w <<< n) ||| (w >>> (64 - n))

/-- A word with its bytes in the opposite order. -/
def swapBytes (w : UInt64) : UInt64 :=
  (littleEndian w).foldl (fun acc b => (acc <<< 8) ||| b.toUInt64) 0

/-- The two halves of the 128-bit product, folded into one word. -/
def foldedProduct (a b : UInt64) : UInt64 :=
  let product := a.toNat * b.toNat
  UInt64.ofNat product ^^^ UInt64.ofNat (product / UInt64.size)

/-- Final mixing of the shortest inputs. -/
def avalancheShort (h : UInt64) : UInt64 :=
  let h := (h ^^^ (h >>> 33)) * prime64x2
  let h := (h ^^^ (h >>> 29)) * prime64x3
  h ^^^ (h >>> 32)

/-- Final mixing of the longer inputs. -/
def avalanche (h : UInt64) : UInt64 :=
  let h := (h ^^^ (h >>> 37)) * primeMix1
  h ^^^ (h >>> 32)

/-- Sixteen bytes of data mixed with sixteen bytes of the secret. -/
def mix16 (data : ByteArray) (position : Nat) (key : Nat) : UInt64 :=
  foldedProduct (word64At data position ^^^ word64At secret key)
    (word64At data (position + 8) ^^^ word64At secret (key + 8))

/-! ## Formulas by length -/

def ofEmpty : UInt64 := avalancheShort (word64At secret 56 ^^^ word64At secret 64)

/-- One to three bytes. -/
def ofUpTo3 (data : ByteArray) : UInt64 :=
  let n := data.size
  let combined := byteAt data 0 <<< 16 ||| byteAt data (n / 2) <<< 24 ||| byteAt data (n - 1) |||
    UInt64.ofNat n <<< 8
  avalancheShort (combined ^^^ (word32At secret 0 ^^^ word32At secret 4))

/-- Four to eight bytes. -/
def ofUpTo8 (data : ByteArray) : UInt64 :=
  let n := data.size
  let joined := word32At data (n - 4) + (word32At data 0 <<< 32)
  let h := joined ^^^ (word64At secret 8 ^^^ word64At secret 16)
  let h := (h ^^^ rotateLeft h 49 ^^^ rotateLeft h 24) * primeMix2
  let h := (h ^^^ ((h >>> 35) + UInt64.ofNat n)) * primeMix2
  h ^^^ (h >>> 28)

/-- Nine to sixteen bytes. -/
def ofUpTo16 (data : ByteArray) : UInt64 :=
  let n := data.size
  let low := word64At data 0 ^^^ (word64At secret 24 ^^^ word64At secret 32)
  let high := word64At data (n - 8) ^^^ (word64At secret 40 ^^^ word64At secret 48)
  avalanche (UInt64.ofNat n + swapBytes low + high + foldedProduct low high)

/-- Seventeen to 128 bytes: pairs of sixteen bytes from both ends. -/
def ofUpTo128 (data : ByteArray) : UInt64 :=
  let n := data.size
  let pair := fun (acc : UInt64) (i : Nat) =>
    acc + mix16 data (16 * i) (32 * i) + mix16 data (n - 16 * (i + 1)) (32 * i + 16)
  avalanche ((List.range ((n - 1) / 32 + 1)).foldl pair (UInt64.ofNat n * prime64x1))

/-- Between 129 and 240 bytes: eight rounds, a mixing, the further rounds and the last sixteen
bytes. -/
def ofUpTo240 (data : ByteArray) : UInt64 :=
  let n := data.size
  let first := (List.range 8).foldl (fun acc i => acc + mix16 data (16 * i) (16 * i))
    (UInt64.ofNat n * prime64x1)
  let further := (List.range (n / 16 - 8)).foldl
    (fun acc i => acc + mix16 data (16 * (i + 8)) (16 * i + 3)) (avalanche first)
  avalanche (further + mix16 data (n - 16) 119)

/-- The eight accumulators of a long input. -/
abbrev Lanes := Vector UInt64 8

def Lanes.start : Lanes :=
  #v[prime32x3, prime64x1, prime64x2, prime64x3, prime64x4, prime32x2, prime64x5, prime32x1]

/-- Take in the 64 bytes of a stripe: every lane gains a product of its keyed word and the word of
its neighbour. -/
def Lanes.absorb (data : ByteArray) (lanes : Lanes) (position key : Nat) : Lanes :=
  Vector.ofFn fun i =>
    let keyed := word64At data (position + 8 * i.val) ^^^ word64At secret (key + 8 * i.val)
    lanes[i] + word64At data (position + 8 * (i.val ^^^ 1)) + keyed.toUInt32.toUInt64 *
      (keyed >>> 32)

/-- Take in `count` stripes that follow each other; the secret moves on by eight bytes a stripe. -/
def Lanes.absorbStripes (data : ByteArray) (lanes : Lanes) (position count : Nat) : Lanes :=
  (List.range count).foldl (fun lanes i => lanes.absorb data (position + 64 * i) (8 * i)) lanes

/-- Mix the lanes at the end of a block. -/
def Lanes.scramble (lanes : Lanes) : Lanes :=
  Vector.ofFn fun i =>
    let a := lanes[i]
    (a ^^^ (a >>> 47) ^^^ word64At secret (128 + 8 * i.val)) * prime32x1

def Lanes.merge (lanes : Lanes) (start : UInt64) : UInt64 :=
  let product := fun i j key =>
    foldedProduct (i ^^^ word64At secret key) (j ^^^ word64At secret (key + 8))
  avalanche (start + product lanes[0] lanes[1] 11 + product lanes[2] lanes[3] 27 +
    product lanes[4] lanes[5] 43 + product lanes[6] lanes[7] 59)

/-- More than 240 bytes: whole blocks of 1024 bytes, the stripes left over, and the last 64 bytes.
-/
def ofLong (data : ByteArray) : UInt64 :=
  let n := data.size
  let blocks := (n - 1) / 1024
  let afterBlocks := (List.range blocks).foldl
    (fun lanes i => (Lanes.absorbStripes data lanes (1024 * i) 16).scramble) Lanes.start
  let afterStripes :=
    Lanes.absorbStripes data afterBlocks (1024 * blocks) ((n - 1 - 1024 * blocks) / 64)
  (afterStripes.absorb data (n - 64) 121).merge (UInt64.ofNat n * prime64x1)

/-- The digest of a payload. -/
def ofBytes (bytes : List UInt8) : UInt64 :=
  let data := bytes.toByteArray
  let n := data.size
  if n = 0 then ofEmpty
  else if n ≤ 3 then ofUpTo3 data
  else if n ≤ 8 then ofUpTo8 data
  else if n ≤ 16 then ofUpTo16 data
  else if n ≤ 128 then ofUpTo128 data
  else if n ≤ 240 then ofUpTo240 data
  else ofLong data

end SmartCard.Digest
