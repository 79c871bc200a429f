-- SUMMARY: Writing numbers, flags, texts, lists and records as CBOR in its shortest form.
import SmartCard.Cbor.Head

/-!
# Writing CBOR

Numbers take their shortest form and all extents are written out. A record is a map from the names
of its fields, in their order, to their values.
-/

namespace SmartCard.Cbor

/-- The bytes of a text in the ASCII range. -/
def asciiBytes (s : String) : List UInt8 := s.toList.map fun c => UInt8.ofNat c.toNat

def number (n : Nat) : List UInt8 := head .unsigned n

def flag (b : Bool) : List UInt8 := [if b then 0xf5 else 0xf4]

/-- A number that may be missing. -/
def optionalNumber : Option Nat → List UInt8
  | none => [0xf6]
  | some n => number n

def text (s : String) : List UInt8 :=
  let bytes := asciiBytes s
  head .text bytes.length ++ bytes

def list {α : Type} (f : α → List UInt8) (xs : List α) : List UInt8 :=
  head .list xs.length ++ xs.flatMap f

def byteList (bytes : List UInt8) : List UInt8 := list (fun b => number b.toNat) bytes

/-- A record: the names of its fields, each followed by its written value. -/
def record (fields : List (String × List UInt8)) : List UInt8 :=
  head .map fields.length ++ fields.flatMap fun field => text field.1 ++ field.2

end SmartCard.Cbor
