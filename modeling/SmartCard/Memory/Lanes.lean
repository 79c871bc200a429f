-- SUMMARY: The four lanes on which writes reach the store: atomic, participating, direct and unconditional.
import SmartCard.Memory

/-!
# Write lanes

Every write of array bytes takes one of four lanes.

* `writeAtomic`: one all-or-nothing unit. If no transaction is open, an implicit one is opened around it.
* `writeParticipating`: logged if a transaction is open, and otherwise not, except that a persistent
  integrity-sensitive array then takes the atomic lane.
* `writeDirect`: never logged.
* `writeUnconditional`: never logged, for values that no rollback may bring back.

Transient arrays are never logged. On every lane a tear is followed by recovery.
-/

namespace SmartCard.Memory

/-- Write to the store, and recover if power is lost on the way. -/
def writeStore (array : ArrayRef) (offset : Nat) (bytes : List UInt8) : Act Memory Unit :=
  (onStore (Store.write array offset bytes)).onFault fun e =>
    if e.isPowerLoss then recover else pure ()

/-- Log the before-image of a write, then write. Without room in the commit buffer the open
transaction is rolled back. -/
def writeLogged (array : ArrayRef) (offset : Nat) (bytes : List UInt8) : Act Memory Unit := do
  let before ← Act.query fun m => m.store.read array offset bytes.length
  let t ← Act.read Memory.transaction
  let logged ← (Act.query fun _ => t.logBefore? ⟨array, offset, before⟩).onFault fun e => do
    Act.emit (.capacityExceeded bytes.length t.unusedCapacity.toNat)
    Act.note (.capacityExceeded array e)
    rollBackOpen .overflow
  setTransaction logged
  Act.emit (.undoLogged (t.log.cost before.length))
  writeStore array offset bytes

/-- Write as one all-or-nothing unit. -/
def writeAtomic (array : ArrayRef) (offset : Nat) (bytes : List UInt8) : Act Memory Unit := do
  let d ← Act.query fun m => m.store.descriptor .store array
  let t ← Act.read Memory.transaction
  if d.lifetime.isTransient then writeStore array offset bytes
  else if t.isIdle then
    setTransaction t.beginImplicit
    Act.emit (.begun true)
    (writeLogged array offset bytes).onFault fun _ => do
      let t ← Act.read Memory.transaction
      if t.state == .implicit then rollBackOpen .explicit else pure ()
    commit
  else writeLogged array offset bytes

/-- Write, joining the open transaction if there is one. -/
def writeParticipating (array : ArrayRef) (offset : Nat) (bytes : List UInt8) :
    Act Memory Unit := do
  let d ← Act.query fun m => m.store.descriptor .store array
  let t ← Act.read Memory.transaction
  if d.lifetime.isTransient then writeStore array offset bytes
  else if t.isIdle then
    if d.requiresAtomicWrites then writeAtomic array offset bytes
    else writeStore array offset bytes
  else writeLogged array offset bytes

/-- Write without logging. -/
def writeDirect (array : ArrayRef) (offset : Nat) (bytes : List UInt8) : Act Memory Unit :=
  writeStore array offset bytes

/-- Write outside any open transaction: no rollback undoes it. -/
def writeUnconditional (array : ArrayRef) (offset : Nat) (bytes : List UInt8) :
    Act Memory Unit := do
  let t ← Act.read Memory.transaction
  if t.isIdle then pure () else Act.note (.unconditionalWrite array)
  writeStore array offset bytes

end SmartCard.Memory
