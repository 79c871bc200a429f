-- SUMMARY: Biometric templates: enrolment, match sessions, validation and blocking.
import SmartCard.Card
import SmartCard.Template.Matcher
import SmartCard.Template.TryCounter

/-!
# Templates

A template holds a reference that its owner enrols in pieces, and answers whether a candidate
matches it. A failed match spends a try from a counter that lies in card memory; without tries the
template is blocked and no longer asks its matcher. Matching is done on the card that holds the
counter, so the operations that touch it are acts on the template and the card together (`Bench`).
-/

namespace SmartCard

structure Template (μ : Type) where
  bioType : UInt8
  /-- The array of the try counter. -/
  counter : ArrayRef
  reference : List UInt8
  /-- What was given since enrolment began. -/
  enrolment : Option (List UInt8)
  initialized : Bool
  validated : Bool
  sessionOpen : Bool
  matcher : μ

/-- A template, and the card that holds its counter. -/
structure Bench (μ : Type) where
  card : Card
  template : Template μ

variable {μ α : Type}

namespace Template

/-- Version of the template interface. -/
def version : List UInt8 := [1, 0, 0]

/-- A template without a reference. -/
def blank (bioType : UInt8) (counter : ArrayRef) (matcher : μ) : Template μ :=
  { bioType := bioType
    counter := counter
    reference := []
    enrolment := none
    initialized := false
    validated := false
    sessionOpen := false
    matcher := matcher }

/-- Make a template and its counter on a card. -/
def make (bioType limit : UInt8) (matcher : μ) : Act Card (Template μ) := do
  let counter ← Card.onMemory (TryCounter.make limit)
  pure (blank bioType counter matcher)

/-- Forget a validation and close any match session. -/
def reset (t : Template μ) : Template μ := { t with validated := false, sessionOpen := false }

/-! ## Enrolment -/

/-- Begin an enrolment. The old reference is dropped. -/
def init (t : Template μ) (data : List UInt8) : Template μ :=
  { t.reset with initialized := false, reference := [], enrolment := some data }

/-- Add data to the enrolment. -/
def update (data : List UInt8) : Act (Template μ) Unit := .step fun t =>
  match t.enrolment with
  | some given => .ok ((), { t with enrolment := some (given ++ data) })
  | none => .error .updateBeforeInit

/-- Make the data given the reference. The enrolment ends even if it was empty. -/
def finish : Act (Template μ) Unit := do
  match ← Act.read Template.enrolment with
  | none => Act.fail .finishBeforeInit
  | some data =>
    Act.modify fun t => { t with enrolment := none }
    if data.isEmpty then Act.fail .emptyReference
    else Act.modify fun t => { t with reference := data, initialized := true }

def requireInitialized (t : Template μ) : Except Fault Unit :=
  if t.initialized then .ok () else .error .notEnrolled

/-! ## Queries -/

def triesRemaining (t : Template μ) (card : Card) : Except Fault UInt8 :=
  TryCounter.remaining card.memory t.counter

/-- The public data of the reference from `offset` on, `size` bytes at most. -/
def publicData [Matcher μ] (t : Template μ) (offset size : Nat) : Except Fault (List UInt8) := do
  t.requireInitialized
  let data := Matcher.publicData t.matcher t.reference
  if offset ≤ data.length then pure ((data.drop offset).take size)
  else throw (.publicOffsetOutside offset data.length)

end Template

namespace Bench

def onTemplate (x : Act (Template μ) α) : Act (Bench μ) α :=
  x.zoom Bench.template fun b t => { b with template := t }

def onCard (x : Act Card α) : Act (Bench μ) α :=
  x.zoom Bench.card fun b c => { b with card := c }

def onMemory (x : Act Memory α) : Act (Bench μ) α := onCard (Card.onMemory x)

def update (f : Template μ → Template μ) : Act (Bench μ) Unit := onTemplate (.modify f)

/-- Apply a score to the match session, the validation and the try counter. -/
def settle (score : Int16) : Act (Bench μ) Int16 := do
  let t ← Act.read Bench.template
  match MatchOutcome.ofScore score with
  | .error e =>
    update fun t => { t with sessionOpen := false }
    Act.fail e
  | .ok .needsMoreData => update fun t => { t with sessionOpen := true }
  | .ok (.success _) =>
    update fun t => { t with sessionOpen := false, validated := true }
    onMemory do
      TryCounter.restoreTries t.counter
      Act.note (.templateValidated t.bioType)
  | .ok (.failure _) =>
    update fun t => { t with sessionOpen := false }
    onMemory do
      let left ← TryCounter.spend t.counter
      Act.note (.matchFailed t.bioType left)
  pure score

/-- Ask the matcher for the score of a candidate. -/
def consult [Matcher μ] (candidate : List UInt8) (phase : MatchPhase) : Act (Bench μ) Int16 := do
  let t ← Act.read Bench.template
  let scored := Matcher.score t.matcher t.reference candidate phase
  update fun t => { t with matcher := scored.2 }
  pure scored.1

/-- Open a match session with a candidate. A blocked template scores 0 without asking its matcher.
-/
def initMatch [Matcher μ] (candidate : List UInt8) : Act (Bench μ) Int16 := do
  Act.query fun b => b.template.requireInitialized
  update Template.reset
  let t ← Act.read Bench.template
  let left ← Act.query fun b => t.triesRemaining b.card
  if left = 0 then
    onMemory (.note (.templateBlocked t.bioType))
    pure 0
  else
    let score ← consult candidate .initial
    settle score

/-- Continue the open match session. -/
def matchData [Matcher μ] (candidate : List UInt8) : Act (Bench μ) Int16 := do
  let t ← Act.read Bench.template
  if t.sessionOpen then
    let score ← consult candidate .continuation
    settle score
  else Act.fail .noOpenSession

/-- Unblock the template with a new try limit. -/
def resetTryLimit (limit : UInt8) : Act (Bench μ) Unit := do
  let t ← Act.read Bench.template
  onMemory (TryCounter.refill t.counter limit)
  update Template.reset

end Bench

end SmartCard
