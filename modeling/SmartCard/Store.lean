-- SUMMARY: The array store: allocation, reads, writes that a tear can cut short, transient clearing, adoption.
import SmartCard.Act
import SmartCard.Config
import SmartCard.Store.Pool
import SmartCard.Store.Table

/-!
# The store

The store holds the arrays of a card, their pools, the next reference to hand out, and the tear that
a test may have armed: after a given number of further bytes the card loses power. Only
`Store.write` pays for its bytes out of the tear budget; recovery writes with `Store.restoreBytes`,
which no tear interrupts.

The store knows nothing of transactions. Who calls it decides what is logged.
-/

namespace SmartCard

structure Store where
  table : Table
  /-- The next reference to hand out; none once all have been used. -/
  next : Option UInt32
  pools : Pools
  /-- Bytes that can still be written before power is lost; none if no tear is armed. -/
  tear : Option UInt64

namespace Store

/-- The store of a new card. -/
def empty (c : Config) : Store where
  table := .empty
  next := some 1
  pools := ⟨.empty c.persistentCapacity, .empty c.transientResetCapacity,
    .empty c.transientDeselectCapacity⟩
  tear := none

/-! ## Lookup -/

/-- The cell under a reference, on behalf of `origin`. -/
def cell (s : Store) (origin : Origin) (array : ArrayRef) : Except Fault Cell :=
  if array.isNull then .error (.nullReference origin)
  else
    match s.table.find? array with
    | some c => .ok c
    | none => .error (.unknownReference origin array)

def descriptor (s : Store) (origin : Origin) (array : ArrayRef) : Except Fault Descriptor :=
  (s.cell origin array).map Cell.descriptor

/-- The bytes of an array from `offset` on, `count` of them. -/
def read (s : Store) (array : ArrayRef) (offset count : Nat) : Except Fault (List UInt8) :=
  (s.cell .store array).bind fun c => c.read offset count

/-! ## Allocation -/

/-- The reference after `id`, if there is one. -/
def refAfter (id : UInt32) : Option UInt32 :=
  if id.toNat + 1 < UInt32.size then some (id + 1) else none

/-- The reference that the next array will get. -/
def freeRef (s : Store) : Except Fault ArrayRef :=
  match s.next with
  | none => .error .referencesExhausted
  | some id =>
    match s.table.find? ⟨id⟩ with
    | some _ => .error (.referenceInUse ⟨id⟩)
    | none => .ok ⟨id⟩

/-- Make a zeroed array and charge its payload to the pool of its lifetime. -/
def allocate (s : Store) (d : Descriptor) : Except Fault (ArrayRef × Store) :=
  if maxArrayLength < d.length then .error (.lengthTooLarge d.length)
  else
    match s.freeRef with
    | .error e => .error e
    | .ok array =>
      let bytes := UInt32.ofNat d.byteLength
      let available := (s.pools.of d.lifetime).available
      if available < bytes then .error (.poolExhausted d.lifetime bytes available)
      else
        .ok (array,
          { s with
            table := s.table.insert array (.zeroed d)
            next := refAfter array.id
            pools := s.pools.charge d.lifetime bytes })

/-- Take in an array under the reference it had before. -/
def adopt (s : Store) (array : ArrayRef) (c : Cell) : Except Fault Store :=
  if array.isNull || (s.table.find? array).isSome then .error (.badImageReference array)
  else
    let bytes := UInt32.ofNat c.payload.length
    if (s.pools.of c.descriptor.lifetime).available < bytes then .error (.imagePoolExhausted array)
    else
      .ok { s with
        table := s.table.insert array c
        next :=
          match s.next, refAfter array.id with
          | some next, some after => some (max next after)
          | _, _ => none
        pools := s.pools.charge c.descriptor.lifetime bytes }

/-! ## Writes -/

/-- Write bytes whatever tear is armed. -/
def restoreBytes (s : Store) (array : ArrayRef) (offset : Nat) (bytes : List UInt8) :
    Except Fault Store :=
  (s.cell .store array).bind fun c =>
    (c.write offset bytes).map fun c => { s with table := s.table.set array c }

/-- Write bytes whatever tear is armed, as an act. -/
def put (array : ArrayRef) (offset : Nat) (bytes : List UInt8) : Act Store Unit :=
  .step fun s => (s.restoreBytes array offset bytes).map fun s => ((), s)

def setTear (tear : Option UInt64) : Act Store Unit :=
  .modify fun s => { s with tear := tear }

/-- Write bytes out of the tear budget. If it does not cover them all, the leading bytes that it
covers are written and power is lost. The budget is spent before the array is looked up. -/
def write (array : ArrayRef) (offset : Nat) (bytes : List UInt8) : Act Store Unit := do
  match ← Act.read Store.tear with
  | none => put array offset bytes
  | some budget =>
    if budget.toNat < bytes.length then
      setTear (some 0)
      put array offset (bytes.take budget.toNat)
      setTear none
      Act.fail (.tear budget.toNat bytes.length array)
    else
      setTear (some (budget - UInt64.ofNat bytes.length))
      put array offset bytes

/-- Zero every transient array whose lifetime `ends`. -/
def clearTransients (s : Store) (ends : Lifetime → Bool) : Store :=
  { s with
    table := s.table.mapCells fun _ c =>
      if c.descriptor.lifetime.isTransient && ends c.descriptor.lifetime then c.clear else c }

/-- The number of transient arrays whose lifetime `ends`. -/
def countTransients (s : Store) (ends : Lifetime → Bool) : Nat :=
  s.table.entries.countP fun entry =>
    entry.2.descriptor.lifetime.isTransient && ends entry.2.descriptor.lifetime

/-- Flip bits of one byte of an array without refreshing its digest. -/
def flipBits (s : Store) (array : ArrayRef) (byte : Nat) (mask : UInt8) : Except Fault Store :=
  (s.cell .store array).bind fun c =>
    match c.flip? byte mask with
    | some c => .ok { s with table := s.table.set array c }
    | none => .error (.byteOutside byte array)

end Store

end SmartCard
