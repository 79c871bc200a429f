-- SUMMARY: Integrity-sensitive arrays: making, checking and clearing them.
import SmartCard.Memory.Elements

/-!
# Integrity-sensitive arrays

A sensitive array carries the digest of its payload. Every write refreshes it, so a check fails only
after bits have changed behind the card's back.
-/

namespace SmartCard.Integrity

/-- The descriptor of a new sensitive array, on a card that may not support them. -/
def descriptorFor (supported : Bool) (kind : Kind) (memoryType : UInt8) (length : Int16) :
    Except Fault Descriptor := do
  if !supported then throw .sensitivityUnsupported
  else if !kind.isPrimitive then throw (.kindNotSensitive kind)
  else
    match Lifetime.ofMemoryType? memoryType with
    | none => throw (.unknownMemoryType .sensitive memoryType)
    | some lifetime =>
      let n ← Memory.arrayLength .sensitive length
      pure ⟨kind, n, lifetime, true⟩

/-- Make a zeroed sensitive array. -/
def make (supported : Bool) (kind : Kind) (memoryType : UInt8) (length : Int16) :
    Act Memory ArrayRef := do
  let d ← Act.query fun _ => descriptorFor supported kind memoryType length
  let array ← Memory.allocate d
  Act.note (.sensitiveAllocated d.kind d.length array d.lifetime)
  pure array

def isSensitive (s : Store) (array : ArrayRef) : Except Fault Bool :=
  (s.descriptor .sensitive array).map Descriptor.sensitive

/-- The cell of a sensitive array. -/
def sensitiveCell (s : Store) (array : ArrayRef) : Except Fault Cell := do
  let c ← s.cell .sensitive array
  if c.descriptor.sensitive then pure c else throw (.notSensitive array)

/-- Compare the payload with its digest. -/
def check (array : ArrayRef) : Act Memory Unit := do
  let c ← Act.query fun m => sensitiveCell m.store array
  if c.isIntact then pure ()
  else
    Act.note (.integrityFailed array)
    Act.fail (.digestMismatch array)

/-- Zero a sensitive array as one atomic unit. -/
def clear (array : ArrayRef) : Act Memory Unit := do
  let c ← Act.query fun m => sensitiveCell m.store array
  let size := c.descriptor.byteLength
  if size = 0 then pure () else Memory.writeAtomic array 0 (List.replicate size 0)

end SmartCard.Integrity
