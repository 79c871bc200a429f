-- SUMMARY: Range operations that write: copying between element widths, and filling.
import SmartCard.Memory.Lanes
import SmartCard.Range.Operand

/-!
# Copying and filling

Elements are stored big-endian, so joining narrow elements into wide ones, most significant first,
or splitting wide ones, leaves the byte sequence as it is. A repacking copy is therefore a copy of
bytes whose extent is measured in elements of the source and whose result in elements of the
destination (`Copy`).

Both operations write as one atomic unit, or without any logging in their non-atomic variants. The
non-atomic variants refuse persistent integrity-sensitive destinations.
-/

namespace SmartCard.Range

/-- How a range operation writes. -/
inductive Protection where
  | atomic
  | nonAtomic
  deriving DecidableEq, Repr

/-- Run a range operation, and report how many elements it handled or that it failed. -/
def reported {α : Type} (operation : RangeOperation) (x : Act Memory (α × Nat)) : Act Memory α := do
  let (a, elements) ← x.onFault fun _ => Act.emit (.rangeFailed operation)
  Act.emit (.rangeDone operation elements)
  pure a

/-- Refuse a write without logging to an array that needs it. -/
def checkProtection (p : Protection) (x : Operand) : Except Fault Unit :=
  match p with
  | .atomic => .ok ()
  | .nonAtomic =>
    if x.descriptor.requiresAtomicWrites then .error (.nonAtomicWrite x.array) else .ok ()

/-- Write bytes under a protection. Nothing happens when there are none. -/
def write (p : Protection) (array : ArrayRef) (offset : Nat) (bytes : List UInt8) :
    Act Memory Unit :=
  if bytes.isEmpty then pure ()
  else
    match p with
    | .atomic => Memory.writeAtomic array offset bytes
    | .nonAtomic => Memory.writeDirect array offset bytes

/-! ## Copy -/

/-- A copy that passed its checks: where its bytes lie, where they go, and the elements it makes. -/
structure Copy where
  sourceByte : Nat
  byteCount : Nat
  destinationByte : Nat
  destinationOffset : Nat
  elements : Nat
  deriving DecidableEq, Repr

/-- How many destination elements `count` source elements make. -/
def repackedCount (source destination : Kind) (count : Nat) : Except Fault Nat :=
  match destination.ratio? source with
  | some ratio =>
    if count % ratio = 0 then .ok (count / ratio)
    else .error (.partialElement count source destination)
  | none => .ok (count * (source.width / destination.width))

/-- Check a copy and find its extent. -/
def Copy.plan (s : Store) (p : Protection) (source : ArrayRef) (sourceOffset sourceLength : Int16)
    (destination : ArrayRef) (destinationOffset : Int16) : Except Fault Copy := do
  let (x, y) ← operands s source destination
  let start ← natural .sourceOffset sourceOffset
  let count ← natural .sourceLength sourceLength
  let target ← natural .destinationOffset destinationOffset
  checkRange .source x start count
  let elements ← repackedCount x.kind y.kind count
  checkRange .destination y target elements
  checkProtection p y
  pure
    { sourceByte := start * x.width
      byteCount := count * x.width
      destinationByte := target * y.width
      destinationOffset := target
      elements := elements }

/-- Copy `sourceLength` elements, repacked into the width of the destination, and return the index
after the last element written. The bytes are read before any is written, so that overlaps do no
harm. -/
def copy (p : Protection) (source : ArrayRef) (sourceOffset sourceLength : Int16)
    (destination : ArrayRef) (destinationOffset : Int16) : Act Memory Int16 :=
  reported (match p with | .atomic => .copy | .nonAtomic => .copyNonAtomic) do
    let plan ← Act.query fun m =>
      Copy.plan m.store p source sourceOffset sourceLength destination destinationOffset
    let bytes ← Act.query fun m => m.store.read source plan.sourceByte plan.byteCount
    write p destination plan.destinationByte bytes
    let next ← Act.query fun _ => shortIndex (plan.destinationOffset + plan.elements)
    pure (next, plan.elements)

/-! ## Fill -/

/-- A fill that passed its checks. -/
structure Fill where
  offset : Nat
  count : Nat
  width : Nat
  valueOffset : Nat
  deriving DecidableEq, Repr

/-- Check a fill. -/
def Fill.plan (s : Store) (p : Protection) (array : ArrayRef) (offset length : Int16)
    (valueArray : ArrayRef) (valueOffset : Int16) : Except Fault Fill := do
  let (x, y) ← operands s array valueArray
  checkKinds x y
  let start ← natural .fillOffset offset
  let count ← natural .fillLength length
  let value ← natural .valueOffset valueOffset
  checkRange .fill x start count
  checkRange .value y value 1
  checkProtection p x
  pure { offset := start, count := count, width := x.width, valueOffset := value }

/-- Set `length` elements to the element at `valueOffset` of `valueArray`, as it is before the call,
and return the index after the last element written. -/
def fill (p : Protection) (array : ArrayRef) (offset length : Int16) (valueArray : ArrayRef)
    (valueOffset : Int16) : Act Memory Int16 :=
  reported (match p with | .atomic => .fill | .nonAtomic => .fillNonAtomic) do
    let plan ← Act.query fun m => Fill.plan m.store p array offset length valueArray valueOffset
    let element ← Act.query fun m =>
      m.store.read valueArray (plan.valueOffset * plan.width) plan.width
    write p array (plan.offset * plan.width) (List.replicate plan.count element).flatten
    let next ← Act.query fun _ => shortIndex (plan.offset + plan.count)
    pure (next, plan.count)

end SmartCard.Range
