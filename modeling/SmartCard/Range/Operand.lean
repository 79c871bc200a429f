-- SUMMARY: Operands of range operations and the checks they pass before anything is read or written.
import SmartCard.Element
import SmartCard.Store

/-!
# Operands

Range operations work on arrays of numbers. All their checks come before the first write, so that a
refused call has no effect.
-/

namespace SmartCard.Range

/-- An array that a range operation accepts. -/
structure Operand where
  array : ArrayRef
  descriptor : Descriptor
  deriving DecidableEq, Repr

def Operand.kind (x : Operand) : Kind := x.descriptor.kind

def Operand.width (x : Operand) : Nat := x.kind.width

def Operand.length (x : Operand) : Nat := x.descriptor.length

/-- Resolve one reference to an array of numbers. -/
def operand (s : Store) (array : ArrayRef) : Except Fault Operand := do
  let d ← s.descriptor .array array
  if d.kind.isNumeric then pure ⟨array, d⟩ else throw (.notNumeric array d.kind)

/-- Resolve two references. A null reference in either place is reported before anything else. -/
def operands (s : Store) (first second : ArrayRef) : Except Fault (Operand × Operand) :=
  if first.isNull then .error (.nullOperand 0)
  else if second.isNull then .error (.nullOperand 1)
  else do
    let x ← operand s first
    let y ← operand s second
    pure (x, y)

/-- An argument that must not be negative. -/
def natural (argument : Argument) (value : Int16) : Except Fault Nat :=
  match index? value with
  | some n => .ok n
  | none => .error (.negativeArgument argument value)

/-- Require that `count` elements lie in the array from `offset` on. -/
def checkRange (role : RangeRole) (x : Operand) (offset count : Nat) : Except Fault Unit :=
  if offset + count ≤ x.length then .ok ()
  else .error (.rangeOutside role offset count x.array x.length)

/-- Require elements of the same kind. -/
def checkKinds (x y : Operand) : Except Fault Unit :=
  if x.kind = y.kind then .ok () else .error (.kindsDiffer x.array x.kind y.array y.kind)

/-- An index as a short. -/
def shortIndex (n : Nat) : Except Fault Int16 :=
  if n ≤ maxArrayLength then .ok (Int16.ofNat n) else .error (.indexTooLarge n)

end SmartCard.Range
