-- SUMMARY: Streams of events as brackets: what may come next, and what this says about the stream as a whole.
import Mathlib.Algebra.Ring.Nat
import SmartCard.Event

/-!
# Brackets

The events of a card open and close brackets, one for each transaction. What a well-bracketed stream
is, is said event by event, with what came before and what comes after (`Event.Fits`). To show that
a stream is of this kind, it is followed from one state of the bracket to the next
(`Bracket.Follows`), which also counts what was opened and closed on the way.
-/

namespace SmartCard

/-! ## Streams -/

namespace Event

def isBegun : Event → Bool
  | .begun _ => true
  | _ => false

def isCommitted : Event → Bool
  | .committed .. => true
  | _ => false

def isAborted : Event → Bool
  | .aborted .. => true
  | _ => false

/-- Whether an event is the rollback that follows on an overflow of the commit buffer. -/
def isOverflow : Event → Bool
  | .aborted .overflow _ => true
  | _ => false

def isPowerLost : Event → Bool
  | .powerLost => true
  | _ => false

/-- The range operation that an event reports on. -/
def operation? : Event → Option RangeOperation
  | .rangeDone operation _ => some operation
  | .rangeFailed operation => some operation
  | _ => none

/-- The bytes charged for the undo entry that an event reports. -/
def charge? : Event → Option Nat
  | .undoLogged bytes => some bytes
  | _ => none

/-- The open bracket after one more event: whether its transaction is implicit, and the events in
it. -/
def enter (bracket : Option (Bool × List Event)) : Event → Option (Bool × List Event)
  | .begun implicit => some (implicit, [])
  | .committed .. => none
  | .aborted .. => none
  | e => bracket.map fun b => (b.1, b.2 ++ [e])

/-- The bracket that a stream leaves open. -/
def unclosed (es : List Event) : Option (Bool × List Event) := es.foldl enter none

/-- What the undo entries of a stream were charged, in order. -/
def charges (es : List Event) : List Nat := es.filterMap charge?

/-- Whether an event has its place in a well-bracketed stream, between the events `before` it and
those `after` it. -/
def Fits (before after : List Event) : Event → Prop
  | .begun _ => unclosed before = none
  | .committed implicit entries bytes => ∃ inside, unclosed before = some (implicit, inside) ∧
    entries = (charges inside).length ∧ bytes = (charges inside).sum
  | .aborted _ entries => ∃ implicit inside, unclosed before = some (implicit, inside) ∧
    entries = (charges inside).length
  | .undoLogged _ => unclosed before ≠ none
  | .capacityExceeded _ _ => unclosed before ≠ none ∧
    ∃ entries, [.aborted .overflow entries] <+: after
  | .powerLost =>
    if unclosed before = none then ∃ arrays, [.transientsCleared arrays] <+: after
    else ∃ entries arrays, [.aborted .powerLoss entries, .transientsCleared arrays] <+: after
  | .rangeDone .. | .rangeFailed _ | .transientsCleared _ => True

theorem charges_concat (es : List Event) (e : Event) :
    charges (es ++ [e]) = charges es ++ e.charge?.toList := by
  rw [charges, List.filterMap_append, List.filterMap_cons]
  rcases e.charge? with _ | _ <;> rfl

theorem charges_concat_of_free {e : Event} (h : e.charge? = none) (es : List Event) :
    charges (es ++ [e]) = charges es := by
  rw [charges_concat, h]
  exact List.append_nil _

end Event

/-! ## Following a stream -/

/-- Where a stream stands. -/
inductive Bracket where
  | closed
  /-- A transaction is open, with so many undo entries and so many bytes charged for them. -/
  | opened (implicit : Bool) (entries bytes : Nat)
  /-- The commit buffer had no room: next comes the rollback. -/
  | overflowing (entries : Nat)
  /-- Power was lost in a transaction: next comes the rollback. -/
  | unpowered (entries : Nat)
  /-- After the loss of power only transient memory is left to be cleared. -/
  | clearing
  deriving DecidableEq, Repr

namespace Bracket

/-- A stream may end in brackets at rest only. -/
def IsAtRest : Bracket → Prop
  | .closed | .opened .. => True
  | .overflowing _ | .unpowered _ | .clearing => False

/-- Whether a transaction is open. -/
def isOpen : Bracket → Bool
  | .closed | .clearing => false
  | .opened .. | .overflowing _ | .unpowered _ => true

/-- What may come next, and where it leads. -/
inductive Step : Bracket → Event → Bracket → Prop where
  | begun {implicit : Bool} : Step .closed (.begun implicit) (.opened implicit 0 0)
  | logged {implicit : Bool} {entries bytes n : Nat} :
      Step (.opened implicit entries bytes) (.undoLogged n)
        (.opened implicit (entries + 1) (bytes + n))
  | committed {implicit : Bool} {entries bytes : Nat} :
      Step (.opened implicit entries bytes) (.committed implicit entries bytes) .closed
  | aborted {implicit : Bool} {cause : AbortCause} {entries bytes : Nat} :
      cause ≠ .overflow → cause ≠ .powerLoss →
      Step (.opened implicit entries bytes) (.aborted cause entries) .closed
  | exceeded {implicit : Bool} {entries bytes requested unused : Nat} :
      Step (.opened implicit entries bytes) (.capacityExceeded requested unused)
        (.overflowing entries)
  | overflowed {entries : Nat} :
      Step (.overflowing entries) (.aborted .overflow entries) .closed
  | lost : Step .closed .powerLost .clearing
  | lostInside {implicit : Bool} {entries bytes : Nat} :
      Step (.opened implicit entries bytes) .powerLost (.unpowered entries)
  | rolledBack {entries : Nat} : Step (.unpowered entries) (.aborted .powerLoss entries) .clearing
  | cleared {arrays : Nat} : Step .clearing (.transientsCleared arrays) .closed
  | deselected {b : Bracket} {arrays : Nat} : b.IsAtRest → Step b (.transientsCleared arrays) b
  | done {b : Bracket} {operation : RangeOperation} {elements : Nat} :
      b.IsAtRest → Step b (.rangeDone operation elements) b
  | failed {b : Bracket} {operation : RangeOperation} :
      b.IsAtRest → Step b (.rangeFailed operation) b

/-- A stream of events, followed from one bracket to another. -/
inductive Follows : Bracket → List Event → Bracket → Prop where
  | nil {b : Bracket} : Follows b [] b
  | cons {b b' b'' : Bracket} {e : Event} {es : List Event} :
      Step b e b' → Follows b' es b'' → Follows b (e :: es) b''

variable {b b' b'' : Bracket} {e : Event} {es es' : List Event}

theorem Follows.one (h : Step b e b') : Follows b [e] b' := .cons h .nil

theorem Follows.append (h : Follows b es b') (h' : Follows b' es' b'') :
    Follows b (es ++ es') b'' := by
  induction h with
  | nil => exact h'
  | cons hstep _ ih => exact .cons hstep (ih h')

theorem Follows.split {before after : List Event} (h : Follows b (before ++ after) b'') :
    ∃ b', Follows b before b' ∧ Follows b' after b'' := by
  induction before generalizing b with
  | nil => exact ⟨b, .nil, h⟩
  | cons e before ih =>
    cases h with
    | cons hstep hrest =>
      obtain ⟨b', hbefore, hafter⟩ := ih hrest
      exact ⟨b', .cons hstep hbefore, hafter⟩

/-! ## What a stream leaves open -/

open Event

/-- Brackets as they stand after a stream that leaves this open. -/
inductive Stands : Bracket → Option (Bool × List Event) → Prop where
  | closed : Stands .closed none
  | clearing : Stands .clearing none
  | opened {implicit : Bool} {inside : List Event} :
      Stands (.opened implicit (charges inside).length (charges inside).sum)
        (some (implicit, inside))
  | overflowing {implicit : Bool} {inside : List Event} :
      Stands (.overflowing (charges inside).length) (some (implicit, inside))
  | unpowered {implicit : Bool} {inside : List Event} :
      Stands (.unpowered (charges inside).length) (some (implicit, inside))

/-- A bracket stays as it stands when an event in it charges nothing. -/
theorem Stands.aside {u : Option (Bool × List Event)} (h : Stands b u) (hrest : b.IsAtRest)
    (hfree : e.charge? = none) : Stands b (u.map fun b => (b.1, b.2 ++ [e])) := by
  cases h with
  | closed => exact .closed
  | clearing => exact hrest.elim
  | @opened implicit inside =>
    rw [← charges_concat_of_free hfree inside]
    exact .opened
  | overflowing => exact hrest.elim
  | unpowered => exact hrest.elim

theorem Stands.step {u : Option (Bool × List Event)} (h : Stands b u) (hstep : Step b e b') :
    Stands b' (enter u e) := by
  cases hstep with
  | begun => exact @Stands.opened _ []
  | @logged implicit _ _ n =>
    cases h with
    | @opened _ inside =>
      have hopened := @Stands.opened implicit (inside ++ [.undoLogged n])
      have hcharges : charges (inside ++ [.undoLogged n]) = charges inside ++ [n] :=
        charges_concat inside (.undoLogged n)
      rw [hcharges, List.length_append, List.sum_append, List.sum_singleton] at hopened
      exact hopened
  | committed => exact .closed
  | aborted => exact .closed
  | @exceeded _ _ _ requested unused =>
    cases h with
    | @opened _ inside =>
      have hfree : charge? (.capacityExceeded requested unused) = none := rfl
      rw [← charges_concat_of_free hfree inside]
      exact .overflowing
  | overflowed => exact .closed
  | lost =>
    cases h
    exact .clearing
  | lostInside =>
    cases h with
    | @opened _ inside =>
      have hfree : charge? .powerLost = none := rfl
      rw [← charges_concat_of_free hfree inside]
      exact .unpowered
  | rolledBack => exact .clearing
  | cleared =>
    cases h
    exact .closed
  | deselected hrest => exact h.aside hrest rfl
  | done hrest => exact h.aside hrest rfl
  | failed hrest => exact h.aside hrest rfl

theorem Stands.follows {u : Option (Bool × List Event)} (h : Stands b u) (hes : Follows b es b') :
    Stands b' (es.foldl enter u) := by
  induction hes generalizing u with
  | nil => exact h
  | cons hstep _ ih => exact ih (h.step hstep)

/-- Where a stream stands that began without a transaction. -/
theorem Follows.stands (h : Follows .closed es b) : Stands b (unclosed es) :=
  Stands.closed.follows h

theorem Stands.isSome_eq {u : Option (Bool × List Event)} (h : Stands b u) :
    u.isSome = b.isOpen := by
  cases h <;> rfl

/-- No implicit transaction is left open where the bracket says so. -/
theorem Stands.ne_implicit {inside : List Event} (h : Stands b (some (true, inside)))
    (hrest : b.IsAtRest) (hnot : ∀ entries bytes, b ≠ .opened true entries bytes) : False := by
  cases h with
  | opened => exact hnot _ _ rfl
  | overflowing => exact hrest
  | unpowered => exact hrest

/-! ## Well-bracketed streams -/

/-- After an overflow only the rollback can follow. -/
theorem Follows.of_overflowing {entries : Nat} (h : Follows (.overflowing entries) es b)
    (hrest : b.IsAtRest) : [.aborted .overflow entries] <+: es := by
  cases h with
  | nil => exact hrest.elim
  | cons hstep _ =>
    cases hstep with
    | overflowed => exact List.prefix_append [_] _
    | deselected hrest => exact hrest.elim
    | done hrest => exact hrest.elim
    | failed hrest => exact hrest.elim

/-- After a loss of power and its rollback only the clearing of transient memory can follow. -/
theorem Follows.of_clearing (h : Follows .clearing es b) (hrest : b.IsAtRest) :
    ∃ arrays, [.transientsCleared arrays] <+: es := by
  cases h with
  | nil => exact hrest.elim
  | cons hstep _ =>
    cases hstep with
    | @cleared arrays => exact ⟨arrays, List.prefix_append [_] _⟩
    | deselected hrest => exact hrest.elim
    | done hrest => exact hrest.elim
    | failed hrest => exact hrest.elim

theorem Follows.of_unpowered {entries : Nat} (h : Follows (.unpowered entries) es b)
    (hrest : b.IsAtRest) :
    ∃ arrays, [.aborted .powerLoss entries, .transientsCleared arrays] <+: es := by
  cases h with
  | nil => exact hrest.elim
  | cons hstep hmore =>
    cases hstep with
    | rolledBack =>
      obtain ⟨arrays, hbegins⟩ := hmore.of_clearing hrest
      exact ⟨arrays, List.cons_prefix_cons.mpr ⟨rfl, hbegins⟩⟩
    | deselected hrest => exact hrest.elim
    | done hrest => exact hrest.elim
    | failed hrest => exact hrest.elim

/-- A stream that can be followed from one state of rest to another is well-bracketed. -/
theorem Follows.fits (h : Follows .closed es b) (hrest : b.IsAtRest) {before after : List Event}
    (heq : es = before ++ e :: after) : e.Fits before after := by
  rw [heq] at h
  obtain ⟨b₁, hbefore, hafter⟩ := h.split
  have hstands := hbefore.stands
  cases hafter with
  | cons hstep hmore =>
    unfold Event.Fits
    generalize unclosed before = u at hstands
    cases hstep with
    | begun =>
      cases hstands
      rfl
    | logged =>
      cases hstands
      nofun
    | committed =>
      cases hstands
      exact ⟨_, rfl, rfl, rfl⟩
    | aborted =>
      cases hstands
      exact ⟨_, _, rfl, rfl⟩
    | exceeded =>
      cases hstands
      exact ⟨nofun, _, hmore.of_overflowing hrest⟩
    | overflowed =>
      cases hstands
      exact ⟨_, _, rfl, rfl⟩
    | lost =>
      cases hstands
      exact hmore.of_clearing hrest
    | lostInside =>
      cases hstands
      exact ⟨_, hmore.of_unpowered hrest⟩
    | rolledBack =>
      cases hstands
      exact ⟨_, _, rfl, rfl⟩
    | cleared => trivial
    | deselected => trivial
    | done => trivial
    | failed => trivial

/-! ## Counting brackets -/

/-- Every bracket that is opened is closed by a commit or by a rollback, or is still open. -/
theorem Follows.count (h : Follows b es b') :
    b.isOpen.toNat + es.countP isBegun =
      es.countP isCommitted + es.countP isAborted + b'.isOpen.toNat := by
  induction h with
  | nil => simp
  | cons hstep _ ih =>
    simp only [List.countP_cons]
    cases hstep <;> simp [isOpen, isBegun, isCommitted, isAborted] at ih ⊢ <;> omega

end Bracket

end SmartCard
