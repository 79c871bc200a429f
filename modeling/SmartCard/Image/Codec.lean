-- SUMMARY: The byte form of images: CBOR records, written in one form and read in all.
import SmartCard.Cbor.Reader
import SmartCard.Cbor.Writer
import SmartCard.Image

/-!
# The byte form of images

An image is a CBOR record of numbers, flags and lists of numbers. `Image.encode` writes the one
shortest form and `Image.decode?` reads every form that names each field once. The tables of field
names below serve both directions.
-/

namespace SmartCard

open Cbor

/-! ## Writing -/

def ImageArray.encode (a : ImageArray) : List UInt8 :=
  Cbor.record
    [("array", number a.array.id.toNat),
      ("kind", number a.kind.toNat),
      ("length", number a.length.toNat),
      ("memory_type", number a.memoryType.toNat),
      ("integrity_sensitive", flag a.sensitive),
      ("checksum", optionalNumber (a.digest.map UInt64.toNat)),
      ("data", byteList a.data)]

def ImageUndo.encode (u : ImageUndo) : List UInt8 :=
  Cbor.record
    [("array", number u.array.id.toNat),
      ("offset", number u.offset.toNat),
      ("before", byteList u.before)]

def Image.encode (image : Image) : List UInt8 :=
  Cbor.record
    [("format", number image.format.toNat),
      ("arrays", Cbor.list ImageArray.encode image.arrays),
      ("pending", Cbor.list ImageUndo.encode image.pending)]

/-! ## Reading -/

def readUInt8 : Reader UInt8 := fun depth bytes =>
  (readNat (UInt8.size) depth bytes).map fun (n, rest) => (UInt8.ofNat n, rest)

def readUInt16 : Reader UInt16 := fun depth bytes =>
  (readNat (UInt16.size) depth bytes).map fun (n, rest) => (UInt16.ofNat n, rest)

def readUInt64 : Reader UInt64 := fun depth bytes =>
  (readNat (UInt64.size) depth bytes).map fun (n, rest) => (UInt64.ofNat n, rest)

def readRef : Reader ArrayRef := fun depth bytes =>
  (readNat (UInt32.size) depth bytes).map fun (n, rest) => (⟨UInt32.ofNat n⟩, rest)

def readDigest : Reader (Option UInt64) := fun depth bytes =>
  (readOptional (UInt64.size) depth bytes).map fun (n, rest) => (n.map UInt64.ofNat, rest)

/-- The fields of an array read so far. -/
structure ImageArray.Partial where
  array : Option ArrayRef := none
  kind : Option UInt8 := none
  length : Option UInt16 := none
  memoryType : Option UInt8 := none
  sensitive : Option Bool := none
  digest : Option (Option UInt64) := none
  data : Option (List UInt8) := none

def ImageArray.Partial.field (i : Nat) (p : Partial) : Reader Partial :=
  match i with
  | 0 => once p.array readRef fun v => { p with array := some v }
  | 1 => once p.kind readUInt8 fun v => { p with kind := some v }
  | 2 => once p.length readUInt16 fun v => { p with length := some v }
  | 3 => once p.memoryType readUInt8 fun v => { p with memoryType := some v }
  | 4 => once p.sensitive readFlag fun v => { p with sensitive := some v }
  | 5 => once p.digest readDigest fun v => { p with digest := some v }
  | 6 => once p.data readBytes fun v => { p with data := some v }
  | _ => fun _ _ => none

/-- The array, once its fields are complete. A missing digest is none. -/
def ImageArray.Partial.finish (p : Partial) : Option ImageArray := do
  pure
    { array := ← p.array
      kind := ← p.kind
      length := ← p.length
      memoryType := ← p.memoryType
      sensitive := ← p.sensitive
      digest := p.digest.join
      data := ← p.data }

def ImageArray.recordReader : RecordReader ImageArray.Partial where
  names := ["array", "kind", "length", "memory_type", "integrity_sensitive", "checksum",
    "data"].map asciiBytes
  start := {}
  field := ImageArray.Partial.field

def ImageArray.read : Reader ImageArray := fun depth bytes => do
  let (p, rest) ← ImageArray.recordReader.read depth bytes
  pure (← p.finish, rest)

/-- The fields of an undo entry read so far. -/
structure ImageUndo.Partial where
  array : Option ArrayRef := none
  offset : Option UInt64 := none
  before : Option (List UInt8) := none

def ImageUndo.Partial.field (i : Nat) (p : Partial) : Reader Partial :=
  match i with
  | 0 => once p.array readRef fun v => { p with array := some v }
  | 1 => once p.offset readUInt64 fun v => { p with offset := some v }
  | 2 => once p.before readBytes fun v => { p with before := some v }
  | _ => fun _ _ => none

def ImageUndo.Partial.finish (p : Partial) : Option ImageUndo := do
  pure { array := ← p.array, offset := ← p.offset, before := ← p.before }

def ImageUndo.recordReader : RecordReader ImageUndo.Partial where
  names := ["array", "offset", "before"].map asciiBytes
  start := {}
  field := ImageUndo.Partial.field

def ImageUndo.read : Reader ImageUndo := fun depth bytes => do
  let (p, rest) ← ImageUndo.recordReader.read depth bytes
  pure (← p.finish, rest)

/-- The fields of an image read so far. -/
structure Image.Partial where
  format : Option UInt16 := none
  arrays : Option (List ImageArray) := none
  pending : Option (List ImageUndo) := none

def Image.Partial.field (i : Nat) (p : Partial) : Reader Partial :=
  match i with
  | 0 => once p.format readUInt16 fun v => { p with format := some v }
  | 1 => once p.arrays (readList ImageArray.read) fun v => { p with arrays := some v }
  | 2 => once p.pending (readList ImageUndo.read) fun v => { p with pending := some v }
  | _ => fun _ _ => none

def Image.Partial.finish (p : Partial) : Option Image := do
  pure { format := ← p.format, arrays := ← p.arrays, pending := ← p.pending }

def Image.recordReader : RecordReader Image.Partial where
  names := ["format", "arrays", "pending"].map asciiBytes
  start := {}
  field := Image.Partial.field

def Image.read : Reader Image := fun depth bytes => do
  let (p, rest) ← Image.recordReader.read depth bytes
  pure (← p.finish, rest)

/-- The image that a byte sequence holds, if it holds one and nothing else. -/
def Image.decode? (bytes : List UInt8) : Option Image :=
  match Image.read maxDepth bytes with
  | some (image, []) => some image
  | _ => none

end SmartCard
