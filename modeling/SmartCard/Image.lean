-- SUMMARY: Images of a card's persistent state, and capturing one from a memory.
import SmartCard.Memory

/-!
# Images

An image is what survives of a card without power: the descriptors of all arrays, the payloads and
digests of the persistent ones, and the undo log of the transaction that was open, the oldest entry
first. Its fields are plain numbers; whether they describe a card is decided when a card is powered
up from it (`SmartCard.Image.PowerUp`).
-/

namespace SmartCard

/-- An array in an image. Transient arrays have no data. -/
structure ImageArray where
  array : ArrayRef
  kind : UInt8
  length : UInt16
  memoryType : UInt8
  sensitive : Bool
  digest : Option UInt64
  data : List UInt8
  deriving DecidableEq, Repr

/-- An undo entry in an image. -/
structure ImageUndo where
  array : ArrayRef
  offset : UInt64
  before : List UInt8
  deriving DecidableEq, Repr

structure Image where
  format : UInt16
  arrays : List ImageArray
  pending : List ImageUndo
  deriving DecidableEq, Repr

namespace Image

/-- The format that this library writes and accepts. -/
def formatVersion : UInt16 := 1

/-- Size of the largest image that is decoded. -/
def maxBytes : Nat := 4 * 1024 * 1024

def captureArray (array : ArrayRef) (c : Cell) : ImageArray :=
  let d := c.descriptor
  let persistent := d.lifetime.isPersistent
  { array := array
    kind := d.kind.code
    length := UInt16.ofNat d.length
    memoryType := d.lifetime.memoryType
    sensitive := d.sensitive
    digest := if persistent then c.digest else none
    data := if persistent then c.payload else [] }

def captureUndo (e : UndoEntry) : ImageUndo := ⟨e.array, UInt64.ofNat e.offset, e.before⟩

/-- The image of a memory. Arrays ascend by reference. -/
def capture (m : Memory) : Image where
  format := formatVersion
  arrays := m.store.table.entries.map fun entry => captureArray entry.1 entry.2
  pending := m.transaction.log.entries.reverse.map captureUndo

end Image

end SmartCard
