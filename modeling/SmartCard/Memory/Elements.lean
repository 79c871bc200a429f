-- SUMMARY: Making arrays, describing them, and reading and writing their elements.
import SmartCard.Element
import SmartCard.Memory.Lanes

/-!
# Arrays and their elements

How applets make arrays and reach single elements. Reading never changes the memory, so it is a
query; writing joins an open transaction.
-/

namespace SmartCard.Memory

/-! ## Making arrays -/

/-- A length for a new array, on behalf of `origin`. -/
def arrayLength (origin : Origin) (length : Int16) : Except Fault Nat :=
  match index? length with
  | some n => .ok n
  | none => .error (.negativeLength origin length)

def allocate (d : Descriptor) : Act Memory ArrayRef :=
  onStore (.step fun s => s.allocate d)

/-- Make a persistent array. -/
def makePersistent (kind : Kind) (length : Int16) : Act Memory ArrayRef := do
  let n ← Act.query fun _ => arrayLength .store length
  allocate ⟨kind, n, .persistent, false⟩

/-- Make a transient array that is cleared by the event with code `event`. -/
def makeTransient (kind : Kind) (length : Int16) (event : UInt8) : Act Memory ArrayRef :=
  match Lifetime.ofEvent? event with
  | none => Act.fail (.unknownEvent event)
  | some lifetime =>
    if kind.allowsTransient then do
      let n ← Act.query fun _ => arrayLength .store length
      allocate ⟨kind, n, lifetime, false⟩
    else Act.fail (.kindNotTransient kind)

/-! ## Queries -/

def descriptor (m : Memory) (array : ArrayRef) : Except Fault Descriptor :=
  m.store.descriptor .store array

/-- The code of the event that clears an array; 0 for a persistent one. -/
def clearingEvent (m : Memory) (array : ArrayRef) : Except Fault UInt8 :=
  (m.descriptor array).map (·.lifetime.eventCode)

/-- Bytes left in the memory with a code. -/
def available (m : Memory) (memoryType : UInt8) : Except Fault UInt32 :=
  match Lifetime.ofMemoryType? memoryType with
  | some lifetime => .ok (m.store.pools.of lifetime).available
  | none => .error (.unknownMemoryType .store memoryType)

/-- The payload of an array. -/
def payload (m : Memory) (array : ArrayRef) : Except Fault (List UInt8) := do
  let d ← m.descriptor array
  m.store.read array 0 d.byteLength

/-- All elements of an array. -/
def elements (m : Memory) (array : ArrayRef) : Except Fault (List Int32) := do
  let d ← m.descriptor array
  let bytes ← m.store.read array 0 d.byteLength
  pure ((chunks d.kind.width bytes).map d.kind.decode)

/-- The array's descriptor and the byte offset of `index`, if `count` elements follow from there. -/
def slot (m : Memory) (array : ArrayRef) (index : Int16) (count : Nat) :
    Except Fault (Descriptor × Nat) := do
  let d ← m.descriptor array
  match index? index with
  | some start =>
    if start + count ≤ d.length then pure (d, start * d.kind.width)
    else throw (.elementsOutside index count array d.length)
  | none => throw (.elementsOutside index count array d.length)

/-- One element, sign-extended. -/
def element (m : Memory) (array : ArrayRef) (index : Int16) : Except Fault Int32 := do
  let (d, start) ← m.slot array index 1
  let bytes ← m.store.read array start d.kind.width
  pure (d.kind.decode bytes)

/-! ## Writes -/

/-- Write one element, truncated to its width. -/
def setElement (array : ArrayRef) (index : Int16) (value : Int32) : Act Memory Unit := do
  let (d, start) ← Act.query fun m => m.slot array index 1
  writeParticipating array start (d.kind.encode value)

/-- Write elements from index 0 on, as one write. -/
def loadElements (array : ArrayRef) (values : List Int32) : Act Memory Unit := do
  if maxArrayLength < values.length then Act.fail .tooManyElements
  else
    let (d, _) ← Act.query fun m => m.slot array 0 values.length
    if values.isEmpty then pure ()
    else writeParticipating array 0 (values.flatMap d.kind.encode)

end SmartCard.Memory
