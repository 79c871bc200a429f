-- SUMMARY: Matching engines, and what the score of a match means.
import SmartCard.Fault

/-!
# Matchers

A template leaves the matching to an engine of its own, which scores a candidate against the
enrolled reference. A score of at least 16384 is a success, -1 asks for more data, any other score
down to 0 is a failure, and other negative scores mean nothing.
-/

namespace SmartCard

/-- What a score means. -/
inductive MatchOutcome where
  | success (score : Int16)
  | failure (score : Int16)
  | needsMoreData
  deriving DecidableEq, Repr

/-- The lowest score of a successful match. -/
def minimumSuccessScore : Int16 := 16384

/-- The score by which an engine asks for more data. -/
def needsMoreDataScore : Int16 := -1

def MatchOutcome.ofScore (score : Int16) : Except Fault MatchOutcome :=
  if score = needsMoreDataScore then .ok .needsMoreData
  else if minimumSuccessScore ≤ score then .ok (.success score)
  else if 0 ≤ score then .ok (.failure score)
  else .error (.invalidScore score)

def MatchOutcome.isSuccess : MatchOutcome → Bool
  | .success _ => true
  | .failure _ | .needsMoreData => false

/-- Whether a candidate opens a match session or continues it. -/
inductive MatchPhase where
  | initial
  | continuation
  deriving DecidableEq, Repr

/-- A matching engine with a state of its own. -/
class Matcher (μ : Type) where
  /-- Score a candidate against the reference. -/
  score : μ → (reference candidate : List UInt8) → MatchPhase → Int16 × μ
  /-- The part of the reference that may be read before a match. -/
  publicData : μ → (reference : List UInt8) → List UInt8 := fun _ _ => []

end SmartCard
