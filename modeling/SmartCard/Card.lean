-- SUMMARY: The card: a configuration and a memory, with everything that applets, hosts and tests can do to it.
import SmartCard.Image.PowerUp
import SmartCard.Integrity
import SmartCard.Packing
import SmartCard.Range.Search

/-!
# The card

A `Card` is one simulated card: its configuration and its memory. This module is the surface that
applets and hosts use. Queries are functions of the card; operations are acts on it. An operation is
an act on the memory, whose notes are kept only if the configuration asks for debug lines
(`Card.onMemory`).
-/

namespace SmartCard

structure Card where
  config : Config
  memory : Memory

/-- A larger number clamped to the range of a short. -/
def clampShort (n : UInt32) : Int16 :=
  if n.toNat ≤ maxArrayLength then Int16.ofNat n.toNat else Int16.ofNat maxArrayLength

namespace Card

/-- Release of the card model. -/
def release : String := "0.3.0"

/-! ## Making cards -/

/-- A card with empty memory, whatever its configuration. -/
def blank (c : Config) : Card := ⟨c, .empty c⟩

/-- A new card. -/
def new (c : Config) : Except Fault Card :=
  match c.validate with
  | .ok () => .ok (blank c)
  | .error e => .error (.config e)

/-- The notes that a card prints. -/
def printed (c : Config) (notes : List Note) : List Note := if c.debug then notes else []

/-- Power a card up from the bytes of an image, in place of the card at hand. On failure that card
stays. -/
def restore (c : Config) (bytes : List UInt8) : Act Card Unit := fun card =>
  match c.validate with
  | .error e => ⟨.error (.config e), card, [], []⟩
  | .ok () =>
    match Image.ofBytes bytes with
    | .error e => ⟨.error e, card, [], []⟩
    | .ok image =>
      match Image.powerUp c image with
      | .error e => ⟨.error e, card, [], []⟩
      | .ok m =>
        let pending := image.pending.length
        ⟨.ok (), ⟨c, m⟩, [], printed c (if 0 < pending then [.pendingRolledBack pending] else [])⟩

/-- The bytes of the card's image. -/
def image (card : Card) : List UInt8 := (Image.capture card.memory).encode

/-- Run an act on the memory of the card. -/
def onMemory {α : Type} (x : Act Memory α) : Act Card α := fun card =>
  let o := x card.memory
  ⟨o.result, { card with memory := o.state }, o.events, printed card.config o.notes⟩

/-! ## Transactions -/

def beginTransaction : Act Card Unit := onMemory Memory.begin

def commitTransaction : Act Card Unit := onMemory Memory.commit

def abortTransaction : Act Card Unit := onMemory Memory.abort

def transactionDepth (card : Card) : UInt8 := card.memory.transaction.depth

/-- Bytes left in the commit buffer. -/
def unusedCommitCapacityExtended (card : Card) : UInt32 := card.memory.transaction.unusedCapacity

def unusedCommitCapacity (card : Card) : Int16 := clampShort card.unusedCommitCapacityExtended

def maxCommitCapacity (card : Card) : Int16 := clampShort card.memory.transaction.maxCapacity

/-! ## Arrays -/

def makePersistentArray (kind : Kind) (length : Int16) : Act Card ArrayRef :=
  onMemory (Memory.makePersistent kind length)

def makeTransientArray (kind : Kind) (length : Int16) (event : UInt8) : Act Card ArrayRef :=
  onMemory (Memory.makeTransient kind length event)

def makeSensitiveArray (kind : Kind) (memoryType : UInt8) (length : Int16) : Act Card ArrayRef :=
  fun card =>
    onMemory (Integrity.make card.config.integritySensitiveSupported kind memoryType length) card

def descriptor (card : Card) (array : ArrayRef) : Except Fault Descriptor :=
  card.memory.descriptor array

def isTransient (card : Card) (array : ArrayRef) : Except Fault UInt8 :=
  card.memory.clearingEvent array

def availableMemoryExtended (card : Card) (memoryType : UInt8) : Except Fault UInt32 :=
  card.memory.available memoryType

def availableMemory (card : Card) (memoryType : UInt8) : Except Fault Int16 :=
  (card.memory.available memoryType).map clampShort

def getElement (card : Card) (array : ArrayRef) (index : Int16) : Except Fault Int32 :=
  card.memory.element array index

def elements (card : Card) (array : ArrayRef) : Except Fault (List Int32) :=
  card.memory.elements array

def rawBytes (card : Card) (array : ArrayRef) : Except Fault (List UInt8) :=
  card.memory.payload array

def setElement (array : ArrayRef) (index : Int16) (value : Int32) : Act Card Unit :=
  onMemory (Memory.setElement array index value)

def loadElements (array : ArrayRef) (values : List Int32) : Act Card Unit :=
  onMemory (Memory.loadElements array values)

/-! ## Range operations -/

def copy (p : Range.Protection) (source : ArrayRef) (sourceOffset sourceLength : Int16)
    (destination : ArrayRef) (destinationOffset : Int16) : Act Card Int16 :=
  onMemory (Range.copy p source sourceOffset sourceLength destination destinationOffset)

def fill (p : Range.Protection) (array : ArrayRef) (offset length : Int16) (valueArray : ArrayRef)
    (valueOffset : Int16) : Act Card Int16 :=
  onMemory (Range.fill p array offset length valueArray valueOffset)

def compare (left : ArrayRef) (leftOffset : Int16) (right : ArrayRef) (rightOffset length : Int16) :
    Act Card Int8 :=
  onMemory (Range.compare left leftOffset right rightOffset length)

def find (array : ArrayRef) (offset : Int16) (valueArray : ArrayRef) (valueOffset : Int16) :
    Act Card Int16 :=
  onMemory (Range.find array offset valueArray valueOffset)

/-! ## Packed values and integrity -/

def getShort (card : Card) (array : ArrayRef) (offset : Int16) : Except Fault Int16 :=
  Packing.getShort card.memory.store array offset

def setShort (array : ArrayRef) (offset value : Int16) : Act Card Int16 :=
  onMemory (Packing.setShort array offset value)

def getInt (card : Card) (array : ArrayRef) (offset : Int16) : Except Fault Int32 :=
  Packing.getInt card.memory.store array offset

def setInt (array : ArrayRef) (offset : Int16) (value : Int32) : Act Card Int16 :=
  onMemory (Packing.setInt array offset value)

def isSensitive (card : Card) (array : ArrayRef) : Except Fault Bool :=
  Integrity.isSensitive card.memory.store array

def assertIntegrity (array : ArrayRef) : Act Card Unit := onMemory (Integrity.check array)

def clearArray (array : ArrayRef) : Act Card Unit := onMemory (Integrity.clear array)

/-! ## Card events and injected faults -/

/-- Reset the card, and tell how many arrays were cleared. -/
def clearOnReset : Act Card Nat := onMemory Memory.reset

/-- Deselect the applet, and tell how many arrays were cleared. -/
def clearOnDeselect : Act Card Nat := onMemory Memory.deselect

/-- Let power fail once `bytes` more bytes have been written. -/
def injectPowerLossAfter (bytes : UInt64) : Act Card Unit :=
  onMemory (Memory.onStore (Store.setTear (some bytes)))

/-- Flip bits in memory behind the card's back. -/
def injectBitFlip (array : ArrayRef) (byte : Nat) (mask : UInt8) : Act Card Unit :=
  onMemory <| Memory.onStore <| .step fun s => (s.flipBits array byte mask).map fun s => ((), s)

end Card

end SmartCard
