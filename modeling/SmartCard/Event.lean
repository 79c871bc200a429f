-- SUMMARY: Events that the card reports to observers, and the debug lines it can print.
import SmartCard.Fault

/-!
# Events and debug lines

Operations report what happens inside them in two ways. An `Event` goes to whoever observes the
card. A `Note` is one line of text for a person; a card prints its notes only when its configuration
asks for them.
-/

namespace SmartCard

/-- The entry points of the range operations, as observers tell them apart. -/
inductive RangeOperation where
  | copy
  | copyNonAtomic
  | fill
  | fillNonAtomic
  | compare
  | find
  deriving DecidableEq, Repr

def RangeOperation.label : RangeOperation → String
  | .copy => "array_copy_repack"
  | .copyNonAtomic => "array_copy_repack_non_atomic"
  | .fill => "array_fill_generic"
  | .fillNonAtomic => "array_fill_generic_non_atomic"
  | .compare => "array_compare_generic"
  | .find => "array_find_generic"

/-- Why a transaction was rolled back. -/
inductive AbortCause where
  | explicit
  | overflow
  | powerLoss
  | reset
  deriving DecidableEq, Repr

def AbortCause.name : AbortCause → String
  | .explicit => "Explicit"
  | .overflow => "Overflow"
  | .powerLoss => "PowerLoss"
  | .reset => "Reset"

instance : ToString AbortCause := ⟨AbortCause.name⟩

/-- What an observer of a card is told. -/
inductive Event where
  | begun (implicit : Bool)
  | committed (implicit : Bool) (entries bytes : Nat)
  | aborted (cause : AbortCause) (entries : Nat)
  | undoLogged (bytes : Nat)
  | capacityExceeded (requested unused : Nat)
  | rangeDone (operation : RangeOperation) (elements : Nat)
  | rangeFailed (operation : RangeOperation)
  | powerLost
  | transientsCleared (arrays : Nat)
  deriving DecidableEq, Repr

/-- What a debug line says. -/
inductive Note where
  | begun
  | committed (entries bytes : Nat)
  | rolledBack (cause : AbortCause) (entries : Nat)
  | capacityExceeded (array : ArrayRef) (fault : Fault)
  | unconditionalWrite (array : ArrayRef)
  | powerLost
  | transientsCleared (arrays : Nat)
  | pendingRolledBack (entries : Nat)
  | sensitiveAllocated (kind : Kind) (length : Nat) (array : ArrayRef) (lifetime : Lifetime)
  | integrityFailed (array : ArrayRef)
  | templateValidated (bioType : UInt8)
  | matchFailed (bioType remaining : UInt8)
  | templateBlocked (bioType : UInt8)
  deriving DecidableEq, Repr

def Note.text : Note → String
  | begun => "transaction begin"
  | committed entries bytes => s!"transaction commit: {entries} undo entries, {bytes} bytes"
  | rolledBack cause entries => s!"transaction rolled back ({cause}): {entries} undo entries"
  | capacityExceeded array fault => s!"commit capacity exceeded writing {array}: {fault.message}"
  | unconditionalWrite array => s!"unconditional write to {array} inside transaction"
  | powerLost => "power loss: running recovery"
  | transientsCleared arrays => s!"cleared {arrays} transient arrays"
  | pendingRolledBack entries => s!"image restore rolled back {entries} pending undo entries"
  | sensitiveAllocated kind length array lifetime =>
    s!"integrity-sensitive {kind}[{length}] allocated as {array} ({lifetime})"
  | integrityFailed array => s!"integrity check failed for {array}"
  | templateValidated bioType => s!"bio template {bioType} validated"
  | matchFailed bioType remaining =>
    s!"bio template {bioType} match failed, {remaining} tries remaining"
  | templateBlocked bioType => s!"bio template {bioType} is blocked"

/-- The note as it is printed. -/
def Note.line (n : Note) : String := "[debug] " ++ n.text

end SmartCard
