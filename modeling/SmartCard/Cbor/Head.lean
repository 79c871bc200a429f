-- SUMMARY: Heads of CBOR data items: the major type and the number that comes with it.

/-!
# Heads of data items

Every data item begins with a head: three bits for the major type, and a number that is either in
the remaining five bits or in the one, two, four or eight bytes that follow. Writers use the
shortest form (`Cbor.head`); readers take any (`Cbor.readHead`), and the form without a number that
leaves the extent of an item open.
-/

namespace SmartCard.Cbor

/-- The major types. -/
inductive Major where
  | unsigned
  | negative
  | bytes
  | text
  | list
  | map
  | tag
  | simple
  deriving DecidableEq, Repr

def Major.code : Major → Nat
  | .unsigned => 0
  | .negative => 1
  | .bytes => 2
  | .text => 3
  | .list => 4
  | .map => 5
  | .tag => 6
  | .simple => 7

/-- The major type in the three high bits of a byte. -/
def Major.ofByte (b : UInt8) : Major :=
  match b.toNat / 32 with
  | 0 => .unsigned
  | 1 => .negative
  | 2 => .bytes
  | 3 => .text
  | 4 => .list
  | 5 => .map
  | 6 => .tag
  | _ => .simple

/-- The low `count` bytes of a number, most significant first. -/
def numberBytes : Nat → Nat → List UInt8
  | 0, _ => []
  | count + 1, n => UInt8.ofNat (n >>> (8 * count)) :: numberBytes count n

/-- The first byte of a head. -/
def leadByte (m : Major) (info : Nat) : UInt8 := UInt8.ofNat (32 * m.code + info)

/-- A head in its shortest form, for a number below 2^64. -/
def head (m : Major) (n : Nat) : List UInt8 :=
  if n < 24 then [leadByte m n]
  else if n < UInt8.size then leadByte m 24 :: numberBytes 1 n
  else if n < UInt16.size then leadByte m 25 :: numberBytes 2 n
  else if n < UInt32.size then leadByte m 26 :: numberBytes 4 n
  else leadByte m 27 :: numberBytes 8 n

/-- Read `count` bytes as the low end of a number whose high end is `n`. -/
def readNumber : Nat → Nat → List UInt8 → Option (Nat × List UInt8)
  | 0, n, rest => some (n, rest)
  | _ + 1, _, [] => none
  | count + 1, n, b :: rest => readNumber count (n * 256 + b.toNat) rest

/-- A head: its number is missing when the extent of the item is left open. -/
structure Head where
  major : Major
  number : Option Nat
  deriving DecidableEq, Repr

/-- Read a head in any form. The reserved forms are refused. -/
def readHead : List UInt8 → Option (Head × List UInt8)
  | [] => none
  | b :: rest =>
    let major := Major.ofByte b
    let info := b.toNat % 32
    if info < 24 then some (⟨major, some info⟩, rest)
    else if info < 28 then
      (readNumber (1 <<< (info - 24)) 0 rest).map fun (n, rest) => (⟨major, some n⟩, rest)
    else if info = 31 then some (⟨major, none⟩, rest)
    else none

/-- The byte that ends an item of open extent. -/
@[match_pattern]
def breakByte : UInt8 := 0xff

end SmartCard.Cbor
