-- SUMMARY: References to card arrays and the null reference.

/-!
# Array references

An applet holds an array by a number that the card hands out once. The number 0 is the null
reference.
-/

namespace SmartCard

/-- A handle of a card array. -/
@[ext] structure ArrayRef where
  id : UInt32
  deriving DecidableEq, Repr, Inhabited

def ArrayRef.null : ArrayRef := ⟨0⟩

def ArrayRef.isNull (a : ArrayRef) : Bool := a.id == 0

instance : ToString ArrayRef := ⟨fun a => s!"#{a.id}"⟩

end SmartCard
