-- SUMMARY: Receivers of events: scoped observers, and the running totals when no observer is installed.
import SmartCard.Event

/-!
# Telemetry

Every event reaches exactly one receiver. Observers are installed for a scope and may nest; the
innermost one receives the events, and with none installed they are added to the running totals.
-/

namespace SmartCard

/-- Totals of one entry point of the range operations. -/
structure RangeTotals where
  calls : UInt64 := 0
  elements : UInt64 := 0
  failures : UInt64 := 0
  deriving DecidableEq, Repr, Inhabited

/-- Totals since the last reset. An entry point appears in `ranges` once it has been called. -/
structure Totals where
  begins : UInt64 := 0
  commits : UInt64 := 0
  aborts : UInt64 := 0
  implicitTransactions : UInt64 := 0
  undoEntries : UInt64 := 0
  undoBytes : UInt64 := 0
  capacityOverflows : UInt64 := 0
  powerLosses : UInt64 := 0
  transientClears : UInt64 := 0
  transientArraysCleared : UInt64 := 0
  ranges : List (RangeOperation × RangeTotals) := []
  deriving DecidableEq, Repr, Inhabited

/-- Add to a total, which stays at the largest word once it gets there. -/
def addSaturating (total : UInt64) (n : Nat) : UInt64 :=
  UInt64.ofNat (min (total.toNat + n) (UInt64.size - 1))

/-- Change the totals of one entry point. -/
def Totals.updateRange (operation : RangeOperation) (f : RangeTotals → RangeTotals) :
    List (RangeOperation × RangeTotals) → List (RangeOperation × RangeTotals)
  | [] => [(operation, f {})]
  | entry :: rest =>
    if entry.1 = operation then (operation, f entry.2) :: rest
    else entry :: updateRange operation f rest

/-- Count an event. An overflow is counted with the rollback that it causes. -/
def Totals.record (t : Totals) : Event → Totals
  | .begun implicit =>
    { t with
      begins := addSaturating t.begins 1
      implicitTransactions := addSaturating t.implicitTransactions (if implicit then 1 else 0) }
  | .committed _ _ _ => { t with commits := addSaturating t.commits 1 }
  | .aborted cause _ =>
    { t with
      aborts := addSaturating t.aborts 1
      capacityOverflows :=
        addSaturating t.capacityOverflows (if cause = .overflow then 1 else 0) }
  | .undoLogged bytes =>
    { t with
      undoEntries := addSaturating t.undoEntries 1
      undoBytes := addSaturating t.undoBytes bytes }
  | .capacityExceeded _ _ => t
  | .rangeDone operation elements =>
    { t with
      ranges := Totals.updateRange operation
        (fun r =>
          { r with
            calls := addSaturating r.calls 1
            elements := addSaturating r.elements elements })
        t.ranges }
  | .rangeFailed operation =>
    { t with
      ranges := Totals.updateRange operation
        (fun r =>
          { r with
            calls := addSaturating r.calls 1
            failures := addSaturating r.failures 1 })
        t.ranges }
  | .powerLost => { t with powerLosses := addSaturating t.powerLosses 1 }
  | .transientsCleared arrays =>
    { t with
      transientClears := addSaturating t.transientClears 1
      transientArraysCleared := addSaturating t.transientArraysCleared arrays }

/-- The running totals and the observers installed, the innermost first, with what each received so
far. -/
structure Telemetry where
  totals : Totals := {}
  observers : List (List Event) := []
  deriving DecidableEq, Repr, Inhabited

namespace Telemetry

/-- Deliver events to the one receiver that is due them. -/
def receive (t : Telemetry) (events : List Event) : Telemetry :=
  match t.observers with
  | [] => { t with totals := events.foldl Totals.record t.totals }
  | innermost :: outer => { t with observers := (innermost ++ events) :: outer }

/-- Install an observer inside those there are. -/
def install (t : Telemetry) : Telemetry := { t with observers := [] :: t.observers }

/-- Remove the innermost observer, and tell what it received. -/
def remove (t : Telemetry) : List Event × Telemetry :=
  match t.observers with
  | [] => ([], t)
  | innermost :: outer => (innermost, { t with observers := outer })

/-- Start the totals anew. -/
def reset (t : Telemetry) : Telemetry := { t with totals := {} }

end Telemetry

end SmartCard
