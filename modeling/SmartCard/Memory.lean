-- SUMMARY: Card memory: store and transaction together, commit and rollback, power loss, reset and deselection.
import SmartCard.Transaction

/-!
# Card memory

The memory of a card is its store and its transaction. This module holds what happens to both at
once: commit, the rollback that every failure shares, and the card events that clear transient
memory. How single writes are protected is in `SmartCard.Memory.Lanes`.
-/

namespace SmartCard

structure Memory where
  store : Store
  transaction : Transaction

namespace Memory

/-- The memory of a new card. -/
def empty (c : Config) : Memory := ⟨.empty c, .idle c⟩

/-- Run an act on the store. -/
def onStore {α : Type} (x : Act Store α) : Act Memory α :=
  x.zoom Memory.store fun m s => { m with store := s }

def setTransaction (t : Transaction) : Act Memory Unit :=
  .modify fun m => { m with transaction := t }

/-! ## Transactions -/

/-- Open an explicit transaction. -/
def begin : Act Memory Unit := do
  setTransaction (← Act.query fun m => m.transaction.begin?)
  Act.emit (.begun false)
  Act.note .begun

/-- Close the open transaction and keep its writes. -/
def commit : Act Memory Unit := do
  let t ← Act.read Memory.transaction
  if t.isIdle then Act.fail .commitWithoutTransaction
  else
    let entries := t.log.entries.length
    let bytes := t.log.used.toNat
    setTransaction t.close
    Act.emit (.committed (t.state == .implicit) entries bytes)
    if t.state == .implicit then pure () else Act.note (.committed entries bytes)

/-- Restore before-images, the newest first, and report the rollback. -/
def rollBack (entries : List UndoEntry) (cause : AbortCause) : Act Memory Unit := do
  onStore (UndoLog.restore entries)
  Act.emit (.aborted cause entries.length)
  Act.note (.rolledBack cause entries.length)

/-- Close the open transaction, explicit or implicit, and roll it back. -/
def rollBackOpen (cause : AbortCause) : Act Memory Unit := do
  let t ← Act.read Memory.transaction
  if t.isIdle then pure ()
  else
    setTransaction t.close
    rollBack t.log.entries cause

/-- Roll the open transaction back at the applet's request. -/
def abort : Act Memory Unit := do
  let t ← Act.read Memory.transaction
  if t.isIdle then Act.fail .abortWithoutTransaction else rollBackOpen .explicit

/-! ## Card events -/

/-- Zero the transient arrays whose lifetime `ends`, and tell how many there are. -/
def clearTransients (ends : Lifetime → Bool) : Act Memory Nat := do
  let arrays ← Act.read fun m => m.store.countTransients ends
  onStore (.modify fun s => s.clearTransients ends)
  Act.emit (.transientsCleared arrays)
  Act.note (.transientsCleared arrays)
  pure arrays

/-- Power up after a tear: roll back what was open, then clear transient memory. -/
def recover : Act Memory Unit := do
  Act.emit .powerLost
  Act.note .powerLost
  onStore (Store.setTear none)
  rollBackOpen .powerLoss
  let _ ← clearTransients fun _ => true

/-- Reset the card: roll back what was open, then clear transient memory. -/
def reset : Act Memory Nat := do
  rollBackOpen .reset
  clearTransients fun _ => true

/-- Deselect the applet: clear the arrays that last until then. An open transaction stays open. -/
def deselect : Act Memory Nat := clearTransients (· == .transientDeselect)

end Memory

end SmartCard
