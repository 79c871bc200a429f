-- SUMMARY: Shorts and ints packed into byte arrays, most significant byte first.
import SmartCard.Element
import SmartCard.Memory.Lanes

/-!
# Packed values

A byte array can hold shorts and ints at any offset, in two or four bytes, big-endian. Setters join
an open transaction and return the offset after the value.
-/

namespace SmartCard.Packing

/-- The byte offset of a window of `width` bytes in a byte array. -/
def window (s : Store) (array : ArrayRef) (offset : Int16) (width : Nat) : Except Fault Nat := do
  let d ← s.descriptor .array array
  if d.kind = .byte then
    match index? offset with
    | some start =>
      if start + width ≤ d.length then pure start
      else throw (.windowOutside width offset array d.length)
    | none => throw (.windowOutside width offset array d.length)
  else throw (.notByteArray array d.kind)

def readWord (s : Store) (array : ArrayRef) (offset : Int16) (width : Nat) :
    Except Fault UInt32 := do
  let start ← window s array offset width
  let bytes ← s.read array start width
  pure (BigEndian.assemble bytes)

def writeWord (array : ArrayRef) (offset : Int16) (word : UInt32) (width : Nat) :
    Act Memory Int16 := do
  let start ← Act.query fun m => window m.store array offset width
  Memory.writeParticipating array start (BigEndian.split word width)
  pure (offset + Int16.ofNat width)

def getShort (s : Store) (array : ArrayRef) (offset : Int16) : Except Fault Int16 :=
  (readWord s array offset 2).map fun word => word.toUInt16.toInt16

def setShort (array : ArrayRef) (offset value : Int16) : Act Memory Int16 :=
  writeWord array offset value.toUInt16.toUInt32 2

def getInt (s : Store) (array : ArrayRef) (offset : Int16) : Except Fault Int32 :=
  (readWord s array offset 4).map UInt32.toInt32

def setInt (array : ArrayRef) (offset : Int16) (value : Int32) : Act Memory Int16 :=
  writeWord array offset value.toUInt32 4

end SmartCard.Packing
