-- SUMMARY: The undo log of a transaction: before-images in a commit buffer of bounded size.
import SmartCard.Store

/-!
# The undo log

Before a transaction changes bytes of a persistent array, it keeps what they were in an `UndoEntry`.
The log is bounded: an entry costs its payload and a fixed overhead, and the sum of the costs stays
within the commit capacity. `UndoLog.restore` brings the store back by writing the before-images,
the newest first.
-/

namespace SmartCard

/-- What a range of bytes of a persistent array was before a write. -/
structure UndoEntry where
  array : ArrayRef
  offset : Nat
  before : List UInt8
  deriving DecidableEq, Repr

/-- The before-images of the open transaction, the newest first, and the room they take. -/
structure UndoLog where
  entries : List UndoEntry
  used : UInt32
  max : UInt32
  overhead : UInt32
  deriving DecidableEq, Repr

namespace UndoLog

def empty (max overhead : UInt32) : UndoLog := ⟨[], 0, max, overhead⟩

/-- Bytes charged for an entry that keeps `count` bytes. -/
def cost (log : UndoLog) (count : Nat) : Nat := log.overhead.toNat + count

/-- Bytes of the commit buffer that are not charged. -/
def unused (log : UndoLog) : UInt32 := log.max - log.used

/-- Whether an entry that keeps `count` bytes has room. -/
def fits (log : UndoLog) (count : Nat) : Bool := log.cost count ≤ log.unused.toNat

/-- Bytes in use after a charge: a sum held at the 32-bit limit and at the capacity. -/
def charged (log : UndoLog) (cost : Nat) : UInt32 :=
  min (UInt32.ofNat (min (log.used.toNat + (UInt32.ofNat cost).toNat) (UInt32.size - 1))) log.max

/-- Add an entry that has room. -/
def push (log : UndoLog) (entry : UndoEntry) : UndoLog :=
  { log with
    entries := entry :: log.entries
    used := log.charged (log.cost entry.before.length) }

/-- Forget all entries. -/
def clear (log : UndoLog) : UndoLog := { log with entries := [], used := 0 }

/-- Write the before-images back, in the order given. No tear interrupts this. -/
def restore : List UndoEntry → Act Store Unit
  | [] => pure ()
  | entry :: older => do
    Store.put entry.array entry.offset entry.before
    restore older

end UndoLog

end SmartCard
