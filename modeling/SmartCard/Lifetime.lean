-- SUMMARY: Lifetimes of array contents: persistent memory and the two transient memories.

/-!
# Lifetimes

An array keeps the lifetime it was made with. Persistent contents survive the loss of power;
transient contents are zeroed by a card reset, and one of the two transient memories by deselection
as well.
-/

namespace SmartCard

/-- How long the contents of an array last. -/
inductive Lifetime where
  | persistent
  | transientReset
  | transientDeselect
  deriving DecidableEq, Repr, Inhabited

/-- The transient lifetime that ends at the event with this code. -/
def Lifetime.ofEvent? : UInt8 → Option Lifetime
  | 1 => some .transientReset
  | 2 => some .transientDeselect
  | _ => none

/-- The lifetime of the memory with this code. -/
def Lifetime.ofMemoryType? : UInt8 → Option Lifetime
  | 0 => some .persistent
  | 1 => some .transientReset
  | 2 => some .transientDeselect
  | _ => none

/-- Code of the event that clears the contents; 0 if no event does. -/
def Lifetime.eventCode : Lifetime → UInt8
  | .persistent => 0
  | .transientReset => 1
  | .transientDeselect => 2

/-- Code of the memory in which contents of this lifetime are kept. -/
def Lifetime.memoryType : Lifetime → UInt8
  | .persistent => 0
  | .transientReset => 1
  | .transientDeselect => 2

def Lifetime.isPersistent : Lifetime → Bool
  | .persistent => true
  | .transientReset | .transientDeselect => false

def Lifetime.isTransient (l : Lifetime) : Bool := !l.isPersistent

/-- The name of a lifetime in messages. -/
def Lifetime.name : Lifetime → String
  | .persistent => "Persistent"
  | .transientReset => "TransientReset"
  | .transientDeselect => "TransientDeselect"

instance : ToString Lifetime := ⟨Lifetime.name⟩

theorem Lifetime.ofMemoryType?_memoryType (l : Lifetime) :
    Lifetime.ofMemoryType? l.memoryType = some l := by
  cases l <;> rfl

end SmartCard
