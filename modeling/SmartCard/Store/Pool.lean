-- SUMMARY: Memory pools: the bytes that the arrays of each lifetime take, and the bytes left.
import SmartCard.Lifetime

/-!
# Pools

Each lifetime has a pool of memory with a fixed capacity. Making an array charges the size of its
payload to the pool of its lifetime; nothing is ever given back.
-/

namespace SmartCard

/-- Bytes taken and bytes in all. -/
structure Pool where
  used : UInt32
  capacity : UInt32
  deriving DecidableEq, Repr

def Pool.empty (capacity : UInt32) : Pool := ⟨0, capacity⟩

/-- Bytes left; none if more than the capacity is taken. -/
def Pool.available (p : Pool) : UInt32 :=
  if p.used ≤ p.capacity then p.capacity - p.used else 0

def Pool.charge (p : Pool) (bytes : UInt32) : Pool := { p with used := p.used + bytes }

/-- The pools of a card. -/
structure Pools where
  persistent : Pool
  transientReset : Pool
  transientDeselect : Pool
  deriving DecidableEq, Repr

/-- The pool of a lifetime. -/
def Pools.of (ps : Pools) : Lifetime → Pool
  | .persistent => ps.persistent
  | .transientReset => ps.transientReset
  | .transientDeselect => ps.transientDeselect

/-- Charge bytes to the pool of a lifetime. -/
def Pools.charge (ps : Pools) (l : Lifetime) (bytes : UInt32) : Pools :=
  match l with
  | .persistent => { ps with persistent := ps.persistent.charge bytes }
  | .transientReset => { ps with transientReset := ps.transientReset.charge bytes }
  | .transientDeselect => { ps with transientDeselect := ps.transientDeselect.charge bytes }

theorem Pools.of_charge (ps : Pools) (l m : Lifetime) (bytes : UInt32) :
    (ps.charge l bytes).of m = if m = l then (ps.of l).charge bytes else ps.of m := by
  cases l <;> cases m <;> rfl

end SmartCard
