-- SUMMARY: One stored array: its descriptor, its payload and the digest that protects a sensitive payload.
import SmartCard.Digest
import SmartCard.Fault

/-!
# Cells

A cell is an array as it lies in memory: a descriptor that never changes, the bytes of the elements,
and for an integrity-sensitive array the digest of these bytes. Every write refreshes the digest
(`Cell.splice`); flipping bits does not (`Cell.flip?`), so that the digest tells the two apart
(`Cell.isIntact`).
-/

namespace SmartCard

/-- What an array was made as. -/
structure Descriptor where
  kind : Kind
  length : Nat
  lifetime : Lifetime
  sensitive : Bool
  deriving DecidableEq, Repr

/-- Size of the payload in bytes. -/
def Descriptor.byteLength (d : Descriptor) : Nat := d.length * d.kind.width

/-- Persistent integrity-sensitive arrays change by whole writes only. -/
def Descriptor.requiresAtomicWrites (d : Descriptor) : Bool :=
  d.sensitive && d.lifetime.isPersistent

/-- An array in memory. -/
structure Cell where
  descriptor : Descriptor
  payload : List UInt8
  digest : Option UInt64
  deriving DecidableEq, Repr

/-- Record the digest of the payload, if the array is sensitive. -/
def Cell.refresh (c : Cell) : Cell :=
  if c.descriptor.sensitive then { c with digest := some (Digest.ofBytes c.payload) } else c

/-- A new array: all bytes are zero. -/
def Cell.zeroed (d : Descriptor) : Cell :=
  Cell.refresh ⟨d, List.replicate d.byteLength 0, none⟩

/-- The bytes from `offset` on, `count` of them. -/
def Cell.read (c : Cell) (offset count : Nat) : Except Fault (List UInt8) :=
  if offset + count ≤ c.payload.length then .ok ((c.payload.drop offset).take count)
  else .error (.bytesOutside offset count c.payload.length)

/-- Replace the bytes from `offset` on by `bytes`. -/
def Cell.splice (c : Cell) (offset : Nat) (bytes : List UInt8) : Cell :=
  Cell.refresh
    { c with
      payload := c.payload.take offset ++ bytes ++ c.payload.drop (offset + bytes.length) }

/-- Write `bytes` at `offset`, within the payload. -/
def Cell.write (c : Cell) (offset : Nat) (bytes : List UInt8) : Except Fault Cell :=
  if offset + bytes.length ≤ c.payload.length then .ok (c.splice offset bytes)
  else .error (.bytesOutside offset bytes.length c.payload.length)

/-- Zero the payload. -/
def Cell.clear (c : Cell) : Cell :=
  Cell.refresh { c with payload := List.replicate c.payload.length 0 }

/-- Flip the bits of `mask` in one byte, behind the back of the digest. -/
def Cell.flip? (c : Cell) (byte : Nat) (mask : UInt8) : Option Cell :=
  if byte < c.payload.length then
    some { c with payload := c.payload.modify byte (· ^^^ mask) }
  else none

/-- Whether the payload agrees with the recorded digest. -/
def Cell.isIntact (c : Cell) : Bool :=
  match c.digest with
  | none => true
  | some digest => digest == Digest.ofBytes c.payload

@[simp] theorem Cell.refresh_descriptor (c : Cell) : c.refresh.descriptor = c.descriptor := by
  unfold Cell.refresh
  split <;> rfl

@[simp] theorem Cell.refresh_payload (c : Cell) : c.refresh.payload = c.payload := by
  unfold Cell.refresh
  split <;> rfl

theorem Cell.zeroed_payload (d : Descriptor) :
    (Cell.zeroed d).payload = List.replicate d.byteLength 0 := by
  simp [Cell.zeroed]

theorem Cell.splice_payload_length {c : Cell} {offset : Nat} {bytes : List UInt8}
    (h : offset + bytes.length ≤ c.payload.length) :
    (c.splice offset bytes).payload.length = c.payload.length := by
  simp only [Cell.splice, Cell.refresh_payload, List.length_append, List.length_take,
    List.length_drop]
  omega

end SmartCard
