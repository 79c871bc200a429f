-- SUMMARY: Reading numbers, flags, lists and records from CBOR in any of its forms.
import SmartCard.Cbor.Head

/-!
# Reading CBOR

A `Reader` takes a value from the front of a byte sequence, or refuses. It is told how many more
lists, maps and tags may be opened within each other.

Reading is lenient about form and strict about content. Numbers and extents may have any width,
extents may be left open, and tags are skipped wherever a value is read. A record is a map whose
keys are texts, byte strings or positions, in any order, or a list of exactly its fields. A value of
another type, a number out of range, and a field that is unknown or given twice are refused.
-/

namespace SmartCard.Cbor

/-- Takes a value from the front of a byte sequence, with a bound on the nesting still allowed. -/
abbrev Reader (α : Type) := Nat → List UInt8 → Option (α × List UInt8)

/-- Lists, maps and tags that may be open at once. -/
def maxDepth : Nat := 127

/-- Skip the tags in front of a value. Each counts as one more level of nesting. -/
def untag : Nat → List UInt8 → Option (Nat × List UInt8)
  | depth, bytes =>
    match readHead bytes with
    | none => none
    | some (⟨.tag, some _⟩, rest) =>
      match depth with
      | 0 => none
      | depth + 1 => untag depth rest
    | some _ => some (depth, bytes)

/-- The head of a value, after its tags. -/
def itemHead (depth : Nat) (bytes : List UInt8) : Option (Nat × Head × List UInt8) :=
  match untag depth bytes with
  | none => none
  | some (depth, bytes) => (readHead bytes).map fun (h, rest) => (depth, h, rest)

/-- A number below a bound. -/
def readNat (bound : Nat) : Reader Nat := fun depth bytes =>
  match itemHead depth bytes with
  | some (_, ⟨.unsigned, some n⟩, rest) => if n < bound then some (n, rest) else none
  | _ => none

def readFlag : Reader Bool := fun depth bytes =>
  match untag depth bytes with
  | some (_, 0xf4 :: rest) => some (false, rest)
  | some (_, 0xf5 :: rest) => some (true, rest)
  | _ => none

/-- Null, or a number below a bound. -/
def readOptional (bound : Nat) : Reader (Option Nat) := fun depth bytes =>
  match bytes with
  | 0xf6 :: rest => some (none, rest)
  | _ => (readNat bound depth bytes).map fun (n, rest) => (some n, rest)

/-! ## Lists -/

/-- Read `count` values, behind those in `done`, which stand in reverse. -/
def readItems {α : Type} (r : Reader α) (depth : Nat) :
    Nat → List UInt8 → List α → Option (List α × List UInt8)
  | 0, bytes, done => some (done.reverse, bytes)
  | count + 1, bytes, done =>
    match r depth bytes with
    | none => none
    | some (a, rest) => readItems r depth count rest (a :: done)

/-- Read values up to the break byte, `fuel` of them at most. -/
def readItemsToBreak {α : Type} (r : Reader α) (depth : Nat) :
    Nat → List UInt8 → List α → Option (List α × List UInt8)
  | 0, _, _ => none
  | fuel + 1, bytes, done =>
    match bytes with
    | breakByte :: rest => some (done.reverse, rest)
    | _ =>
      match r depth bytes with
      | none => none
      | some (a, rest) => readItemsToBreak r depth fuel rest (a :: done)

/-- A list. Every value of a list takes at least one byte, so that their number bounds an open
extent. -/
def readList {α : Type} (r : Reader α) : Reader (List α) := fun depth bytes =>
  match itemHead depth bytes with
  | some (depth + 1, ⟨.list, some count⟩, rest) => readItems r depth count rest []
  | some (depth + 1, ⟨.list, none⟩, rest) => readItemsToBreak r depth rest.length rest []
  | _ => none

def readBytes : Reader (List UInt8) := fun depth bytes =>
  (readList (readNat 256) depth bytes).map fun (ns, rest) => (ns.map UInt8.ofNat, rest)

/-! ## Records -/

/-- The pieces of a string of open extent, up to the break byte, behind those in `done`. -/
def readPieces (m : Major) :
    Nat → List UInt8 → List UInt8 → Option (List UInt8 × List UInt8)
  | 0, _, _ => none
  | fuel + 1, bytes, done =>
    match bytes with
    | breakByte :: rest => some (done, rest)
    | _ =>
      match readHead bytes with
      | some (⟨major, some count⟩, rest) =>
        let piece := rest.take count
        if major = m ∧ piece.length = count then
          readPieces m fuel (rest.drop count) (done ++ piece)
        else none
      | _ => none

/-- The content of a text or byte string after its head. -/
def readString (m : Major) (count : Option Nat) (rest : List UInt8) :
    Option (List UInt8 × List UInt8) :=
  match count with
  | some count =>
    let content := rest.take count
    if content.length = count then some (content, rest.drop count) else none
  | none => readPieces m rest.length rest []

/-- The position of the field that a key names. -/
def readKey (names : List (List UInt8)) : Reader Nat := fun depth bytes =>
  match itemHead depth bytes with
  | some (_, ⟨.unsigned, some n⟩, rest) => if n < names.length then some (n, rest) else none
  | some (_, ⟨.text, count⟩, rest) =>
    (readString .text count rest).bind fun (key, rest) =>
      (names.findIdx? (· == key)).map fun i => (i, rest)
  | some (_, ⟨.bytes, count⟩, rest) =>
    (readString .bytes count rest).bind fun (key, rest) =>
      (names.findIdx? (· == key)).map fun i => (i, rest)
  | _ => none

/-- How a record is read: the names of its fields, and for each position how its value is added to
what was read so far. -/
structure RecordReader (ρ : Type) where
  names : List (List UInt8)
  start : ρ
  field : Nat → ρ → Reader ρ

/-- The value of a field that has none yet. -/
def once {α ρ : Type} (old : Option α) (r : Reader α) (put : α → ρ) : Reader ρ :=
  fun depth bytes =>
    if old.isSome then none else (r depth bytes).map fun (a, rest) => (put a, rest)

/-- Read a key and its value. -/
def RecordReader.entry {ρ : Type} (r : RecordReader ρ) (known : ρ) : Reader ρ :=
  fun depth bytes =>
    match readKey r.names depth bytes with
    | none => none
    | some (i, rest) => r.field i known depth rest

/-- Read `count` keys with their values. -/
def RecordReader.entries {ρ : Type} (r : RecordReader ρ) (depth : Nat) :
    Nat → ρ → List UInt8 → Option (ρ × List UInt8)
  | 0, known, bytes => some (known, bytes)
  | count + 1, known, bytes =>
    match r.entry known depth bytes with
    | none => none
    | some (known, rest) => r.entries depth count known rest

/-- Read keys with their values up to the break byte, `fuel` of them at most. -/
def RecordReader.entriesToBreak {ρ : Type} (r : RecordReader ρ) (depth : Nat) :
    Nat → ρ → List UInt8 → Option (ρ × List UInt8)
  | 0, _, _ => none
  | fuel + 1, known, bytes =>
    match bytes with
    | breakByte :: rest => some (known, rest)
    | _ =>
      match r.entry known depth bytes with
      | none => none
      | some (known, rest) => r.entriesToBreak depth fuel known rest

/-- Read the values of the fields at the given positions, without keys. -/
def RecordReader.values {ρ : Type} (r : RecordReader ρ) (depth : Nat) :
    List Nat → ρ → List UInt8 → Option (ρ × List UInt8)
  | [], known, bytes => some (known, bytes)
  | i :: more, known, bytes =>
    match r.field i known depth bytes with
    | none => none
    | some (known, rest) => r.values depth more known rest

/-- Read a record in any of its forms, as far as its fields were given. -/
def RecordReader.read {ρ : Type} (r : RecordReader ρ) : Reader ρ := fun depth bytes =>
  match itemHead depth bytes with
  | some (depth + 1, ⟨.map, some count⟩, rest) => r.entries depth count r.start rest
  | some (depth + 1, ⟨.map, none⟩, rest) => r.entriesToBreak depth rest.length r.start rest
  | some (depth + 1, ⟨.list, some count⟩, rest) =>
    if count = r.names.length then r.values depth (List.range count) r.start rest else none
  | some (depth + 1, ⟨.list, none⟩, rest) =>
    match r.values depth (List.range r.names.length) r.start rest with
    | some (all, breakByte :: rest) => some (all, rest)
    | _ => none
  | _ => none

end SmartCard.Cbor
