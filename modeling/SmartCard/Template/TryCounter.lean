-- SUMMARY: The try counter of a template: limit and remaining tries in two bytes of card memory.
import SmartCard.Memory.Elements

/-!
# Try counters

The limit and the remaining tries of a template lie in a persistent array of two bytes. Every update
takes the unconditional lane, so that no rollback gives spent tries back.
-/

namespace SmartCard.TryCounter

/-- Require a limit of at least one try. -/
def checkLimit (limit : UInt8) : Except Fault Unit :=
  if limit = 0 then .error .zeroTryLimit else .ok ()

/-- Set the limit, and give as many tries. -/
def refill (array : ArrayRef) (limit : UInt8) : Act Memory Unit := do
  Act.query fun _ => checkLimit limit
  Memory.writeUnconditional array 0 [limit, limit]

/-- Make the counter of a new template. -/
def make (limit : UInt8) : Act Memory ArrayRef := do
  Act.query fun _ => checkLimit limit
  let array ← Memory.allocate ⟨.byte, 2, .persistent, false⟩
  refill array limit
  pure array

/-- A byte of the counter. -/
def byteAt (m : Memory) (array : ArrayRef) (i : Nat) : Except Fault UInt8 :=
  (m.store.read array i 1).map fun bytes => bytes.headD 0

def limit (m : Memory) (array : ArrayRef) : Except Fault UInt8 := byteAt m array 0

def remaining (m : Memory) (array : ArrayRef) : Except Fault UInt8 := byteAt m array 1

/-- Spend a try, if one is left, and tell how many remain. -/
def spend (array : ArrayRef) : Act Memory UInt8 := do
  let left ← Act.query fun m => remaining m array
  let left := if left = 0 then 0 else left - 1
  Memory.writeUnconditional array 1 [left]
  pure left

/-- Give all tries back after a success. -/
def restoreTries (array : ArrayRef) : Act Memory Unit := do
  let all ← Act.query fun m => limit m array
  Memory.writeUnconditional array 1 [all]

end SmartCard.TryCounter
