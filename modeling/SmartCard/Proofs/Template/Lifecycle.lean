-- SUMMARY: The life of a template as an automaton, and that each act on a template is a transition of it.
import SmartCard.Proofs.Template.Matching

/-!
# Lifecycles

A template keeps five fields, and its acts update them one by one. What they mean together is one of
three things (`Lifecycle`): no reference is enrolled, an enrolment is under way with the data given
so far, or a reference is enrolled and the template is idle, in a match session or validated. What
an act does to a template is a transition between these (`Lifecycle.next`), given what the card and
the matcher answer (`Surroundings`). The automaton hands the matcher the reference of the state it
is in, so that a matcher sees no reference but an enrolled one.
-/

namespace SmartCard

variable {μ α : Type}

/-! ## The automaton -/

/-- What an enrolled template is engaged in. -/
inductive Engagement where
  | idle
  | session
  | validated
  deriving DecidableEq, Repr

/-- Where a template stands. -/
inductive Lifecycle where
  | unenrolled
  | enrolling (given : List UInt8)
  | enrolled (reference : List UInt8) (filled : reference ≠ []) (engagement : Engagement)
  deriving DecidableEq

/-- What can be done with a template. -/
inductive Template.Use where
  | init (data : List UInt8)
  | update (data : List UInt8)
  | finish
  | initMatch (candidate : List UInt8)
  | matchData (candidate : List UInt8)
  | reset
  | resetTryLimit (limit : UInt8)
  deriving DecidableEq, Repr

/-- Whether a use begins or ends an enrolment. -/
def Template.Use.boundsEnrolment : Template.Use → Bool
  | .init _ | .finish => true
  | _ => false

/-- What a use adds to an enrolment. -/
def Template.Use.added : Template.Use → List UInt8
  | .update data => data
  | _ => []

/-- What a card and a matcher would answer a template: the remaining tries, the score of a
candidate, and how each update of the counter would end. -/
structure Surroundings where
  tries : Except Fault UInt8
  score : (reference candidate : List UInt8) → MatchPhase → Int16
  restored : Except Fault Unit
  spent : Except Fault Unit
  refilled : (limit : UInt8) → Except Fault Unit

/-- What a matcher is asked. -/
structure Consultation where
  reference : List UInt8
  candidate : List UInt8
  phase : MatchPhase
  deriving DecidableEq, Repr

/-- What comes of a use: the answer, which is a score for matches, what the matcher is asked, and
where the template stands then. -/
structure Transition where
  answer : Except Fault (Option Int16)
  asked : Option Consultation
  target : Lifecycle

namespace Lifecycle

def reference : Lifecycle → List UInt8
  | .enrolled reference _ _ => reference
  | _ => []

/-- What was given since enrolment began. -/
def given? : Lifecycle → Option (List UInt8)
  | .enrolling given => some given
  | _ => none

def engagement? : Lifecycle → Option Engagement
  | .enrolled _ _ engagement => some engagement
  | _ => none

/-- The end of any session and any validation. -/
def closed : Lifecycle → Lifecycle
  | .enrolled reference filled _ => .enrolled reference filled .idle
  | l => l

/-- Ask the matcher, and go where its score leads. -/
def consult (w : Surroundings) (reference : List UInt8) (filled : reference ≠ [])
    (candidate : List UInt8) (phase : MatchPhase) : Transition :=
  let score := w.score reference candidate phase
  let asked := some ⟨reference, candidate, phase⟩
  match MatchOutcome.ofScore score with
  | .error e => ⟨.error e, asked, .enrolled reference filled .idle⟩
  | .ok .needsMoreData => ⟨.ok (some score), asked, .enrolled reference filled .session⟩
  | .ok (.success _) =>
    ⟨w.restored.map fun _ => some score, asked, .enrolled reference filled .validated⟩
  | .ok (.failure _) => ⟨w.spent.map fun _ => some score, asked, .enrolled reference filled .idle⟩

/-- A use that changes nothing. -/
def refuse (l : Lifecycle) (e : Fault) : Transition := ⟨.error e, none, l⟩

/-- What comes of a use. -/
def next (w : Surroundings) (l : Lifecycle) : Template.Use → Transition
  | .init data => ⟨.ok none, none, .enrolling data⟩
  | .update data =>
    match l with
    | .enrolling given => ⟨.ok none, none, .enrolling (given ++ data)⟩
    | _ => l.refuse .updateBeforeInit
  | .finish =>
    match l with
    | .enrolling given =>
      if filled : given ≠ [] then ⟨.ok none, none, .enrolled given filled .idle⟩
      else ⟨.error .emptyReference, none, .unenrolled⟩
    | _ => l.refuse .finishBeforeInit
  | .initMatch candidate =>
    match l with
    | .enrolled reference filled _ =>
      match w.tries with
      | .error e => ⟨.error e, none, .enrolled reference filled .idle⟩
      | .ok left =>
        if left = 0 then ⟨.ok (some 0), none, .enrolled reference filled .idle⟩
        else consult w reference filled candidate .initial
    | _ => l.refuse .notEnrolled
  | .matchData candidate =>
    match l with
    | .enrolled reference filled .session => consult w reference filled candidate .continuation
    | _ => l.refuse .noOpenSession
  | .reset => ⟨.ok none, none, l.closed⟩
  | .resetTryLimit limit =>
    match w.refilled limit with
    | .error e => l.refuse e
    | .ok () => ⟨.ok none, none, l.closed⟩

def isValidated (l : Lifecycle) : Bool := l.engagement? == some .validated

/-- Whether a use withdraws a validation, whatever the matcher says. -/
def withdraws (w : Surroundings) (l : Lifecycle) : Template.Use → Bool
  | .init _ | .reset => true
  | .initMatch _ => l.engagement?.isSome
  | .resetTryLimit limit => (w.refilled limit).isOk
  | _ => false

/-- The public part of the reference. -/
def published (l : Lifecycle) (publicData : List UInt8 → List UInt8) (offset size : Nat) :
    Except Fault (List UInt8) :=
  match l with
  | .enrolled reference _ _ =>
    if offset ≤ (publicData reference).length then
      .ok (((publicData reference).drop offset).take size)
    else .error (.publicOffsetOutside offset (publicData reference).length)
  | _ => .error .notEnrolled

/-- A use is refused out of hand: an enrolment is continued that was not begun, or a match that was
not opened, or there is nothing to match against. -/
inductive Refuses (l : Lifecycle) : Template.Use → Fault → Prop where
  | update {data : List UInt8} : l.given? = none → Refuses l (.update data) .updateBeforeInit
  | finish : l.given? = none → Refuses l .finish .finishBeforeInit
  | initMatch {candidate : List UInt8} :
      l.engagement? = none → Refuses l (.initMatch candidate) .notEnrolled
  | matchData {candidate : List UInt8} :
      l.engagement? ≠ some .session → Refuses l (.matchData candidate) .noOpenSession

/-- The reason for which a use is refused. -/
def reasonOf : Template.Use → BioReason
  | .initMatch _ => .noTemplatesEnrolled
  | _ => .illegalUse

variable {l : Lifecycle} {u : Template.Use} {e : Fault}

theorem Refuses.category (h : l.Refuses u e) : e.category = .reasoned (.bio (reasonOf u)) := by
  cases h <;> rfl

theorem Refuses.next (h : l.Refuses u e) (w : Surroundings) : l.next w u = l.refuse e := by
  cases h with
  | update hl =>
    cases l with
    | enrolling => cases hl
    | _ => rfl
  | finish hl =>
    cases l with
    | enrolling => cases hl
    | _ => rfl
  | initMatch hl =>
    cases l with
    | enrolled => cases hl
    | _ => rfl
  | matchData hl =>
    rcases l with _ | _ | ⟨_, _, _ | _ | _⟩
    case enrolled.session => exact absurd rfl hl
    all_goals rfl

/-- Until an enrolment is begun or ended, what is added to it follows what was given. -/
theorem target_next_enrolling (hu : u.boundsEnrolment = false) (w : Surroundings)
    (given : List UInt8) : ((enrolling given).next w u).target = .enrolling (given ++ u.added) := by
  have hsame : enrolling given = .enrolling (given ++ []) :=
    congrArg _ (List.append_nil given).symm
  cases u with
  | init => cases hu
  | finish => cases hu
  | update => rfl
  | initMatch => exact hsame
  | matchData => exact hsame
  | reset => exact hsame
  | resetTryLimit limit =>
    unfold Lifecycle.next
    dsimp only
    split
    · exact hsame
    · exact hsame

/-! ### Consultations -/

section Consultations

variable {w : Surroundings} {reference candidate : List UInt8} {filled : reference ≠ []}
  {phase : MatchPhase}

theorem asked_consult :
    (consult w reference filled candidate phase).asked = some ⟨reference, candidate, phase⟩ := by
  unfold consult
  dsimp only
  split <;> rfl

/-- A consultation leaves a template validated exactly if its score is a success. -/
theorem isValidated_consult :
    (consult w reference filled candidate phase).target.isValidated = true ↔
      minimumSuccessScore ≤ w.score reference candidate phase := by
  rw [minimumSuccessScore_le_iff]
  unfold consult
  dsimp only
  rcases MatchOutcome.ofScore (w.score reference candidate phase) with e | n | n | _
  case ok.success => exact ⟨fun _ => ⟨n, rfl⟩, fun _ => rfl⟩
  all_goals exact ⟨nofun, fun ⟨_, h⟩ => nomatch h⟩

/-- What comes of a success hangs on the update of the counter. -/
theorem answer_consult (h : minimumSuccessScore ≤ w.score reference candidate phase) :
    (consult w reference filled candidate phase).answer =
      w.restored.map fun _ => some (w.score reference candidate phase) := by
  obtain ⟨n, hn⟩ := minimumSuccessScore_le_iff.mp h
  unfold consult
  dsimp only
  rw [hn]

/-- The matcher is asked about nothing but the reference that is enrolled. -/
theorem next_of_asked {call : Consultation} (h : (l.next w u).asked = some call) :
    ∃ filled engagement, l = .enrolled call.reference filled engagement ∧
      l.next w u = consult w call.reference filled call.candidate call.phase := by
  cases u
  case initMatch candidate =>
    rcases l with _ | _ | ⟨reference, filled, engagement⟩
    case enrolled =>
      unfold next at h ⊢
      dsimp only at h ⊢
      split at h
      · cases h
      · split at h
        · cases h
        next hne =>
          rw [asked_consult] at h
          cases h
          exact ⟨filled, engagement, rfl, if_neg hne⟩
    all_goals cases h
  case matchData candidate =>
    rcases l with _ | _ | ⟨reference, filled, _ | _ | _⟩
    case enrolled.session =>
      have hcall := asked_consult.symm.trans h
      cases hcall
      exact ⟨filled, .session, rfl, rfl⟩
    all_goals cases h
  case resetTryLimit limit =>
    unfold next at h
    dsimp only at h
    split at h <;> cases h
  case finish =>
    unfold next at h
    dsimp only at h
    split at h
    · split at h <;> cases h
    · cases h
  case update data =>
    rcases l with _ | _ | _ <;> cases h
  all_goals cases h

/-- Without tries a match is opened without asking the matcher. -/
theorem asked_initMatch_of_blocked (h : w.tries = .ok 0) (candidate : List UInt8) :
    (l.next w (.initMatch candidate)).asked = none := by
  cases l
  case enrolled =>
    unfold next
    dsimp only
    rw [h]
    rfl
  all_goals rfl

end Consultations

/-- Without the matcher nothing validates a template, and a validation lasts until it is withdrawn.
-/
theorem isValidated_next {w : Surroundings} (h : (l.next w u).asked = none) :
    (l.next w u).target.isValidated = (l.isValidated && !l.withdraws w u) := by
  cases u
  case init => exact (Bool.and_false _).symm
  case reset => cases l <;> exact (Bool.and_false _).symm
  case update => cases l <;> exact (Bool.and_true _).symm
  case finish =>
    cases l
    case enrolling given =>
      unfold next
      dsimp only
      split <;> rfl
    all_goals exact (Bool.and_true _).symm
  case initMatch candidate =>
    cases l
    case enrolled =>
      unfold next at h ⊢
      dsimp only at h ⊢
      split at h
      · exact (Bool.and_false _).symm
      · split at h
        next hzero =>
          rw [if_pos hzero]
          exact (Bool.and_false _).symm
        · rw [asked_consult] at h
          cases h
    all_goals rfl
  case matchData candidate =>
    rcases l with _ | _ | ⟨_, _, _ | _ | _⟩
    case enrolled.session =>
      rw [next, asked_consult] at h
      cases h
    all_goals rfl
  case resetTryLimit limit =>
    unfold next withdraws
    dsimp only
    rcases w.refilled limit with e | _
    · exact (Bool.and_true _).symm
    · cases l <;> exact (Bool.and_false _).symm

end Lifecycle

/-! ## Templates on the automaton -/

/-- Two flags tell the engagements apart. -/
theorem Engagement.eq_of_flags {x y : Engagement}
    (hvalidated : (some x == some .validated) = (some y == some .validated))
    (hsession : (some x == some .session) = (some y == some .session)) : x = y := by
  cases x <;> cases y <;>
    first | rfl | exact absurd hvalidated (by decide) | exact absurd hsession (by decide)

namespace Template

/-- The fields of a template say that it stands at `l`. -/
structure Encodes (t : Template μ) (l : Lifecycle) : Prop where
  reference : t.reference = l.reference
  enrolment : t.enrolment = l.given?
  initialized : t.initialized = l.engagement?.isSome
  validated : t.validated = l.isValidated
  sessionOpen : t.sessionOpen = (l.engagement? == some .session)

variable {t : Template μ} {l l' : Lifecycle}

theorem encodes_blank (bioType : UInt8) (counter : ArrayRef) (matcher : μ) :
    (blank bioType counter matcher).Encodes .unenrolled := ⟨rfl, rfl, rfl, rfl, rfl⟩

/-- The fields of a template say one thing only. -/
theorem Encodes.unique (h : t.Encodes l) (h' : t.Encodes l') : l = l' := by
  have hreference := h.reference.symm.trans h'.reference
  have hgiven := h.enrolment.symm.trans h'.enrolment
  have hinitialized := h.initialized.symm.trans h'.initialized
  have hvalidated := h.validated.symm.trans h'.validated
  have hsession := h.sessionOpen.symm.trans h'.sessionOpen
  cases l with
  | unenrolled =>
    cases l' with
    | unenrolled => rfl
    | enrolling => cases hgiven
    | enrolled => cases hinitialized
  | enrolling given =>
    cases l' with
    | unenrolled => cases hgiven
    | enrolling => exact congrArg _ (Option.some.inj hgiven)
    | enrolled => cases hinitialized
  | enrolled reference filled engagement =>
    cases l' with
    | unenrolled => cases hinitialized
    | enrolling => cases hinitialized
    | enrolled _ _ engagement' =>
      cases hreference
      rw [Engagement.eq_of_flags hvalidated hsession]

theorem Encodes.reset (h : t.Encodes l) : t.reset.Encodes l.closed := by
  obtain ⟨hreference, henrolment, hinitialized, _, _⟩ := h
  cases l with
  | enrolled => exact ⟨hreference, henrolment, hinitialized, rfl, rfl⟩
  | _ => exact ⟨hreference, henrolment, hinitialized, rfl, rfl⟩

/-- Whether a reference is enrolled. -/
theorem Encodes.requireInitialized (h : t.Encodes l) :
    t.requireInitialized = if l.engagement?.isSome then .ok () else .error .notEnrolled := by
  unfold Template.requireInitialized
  rw [h.initialized]

theorem Encodes.publicData [Matcher μ] (h : t.Encodes l) (offset size : Nat) :
    t.publicData offset size = l.published (Matcher.publicData t.matcher) offset size := by
  unfold Template.publicData
  rw [h.requireInitialized, h.reference]
  cases l with
  | enrolled => rfl
  | _ => rfl

end Template

/-- The state of a matcher after a consultation, if there is one. -/
def Matcher.after [Matcher μ] (matcher : μ) : Option Consultation → μ
  | none => matcher
  | some call => (Matcher.score matcher call.reference call.candidate call.phase).2

namespace Bench

/-- What the card and the matcher of a bench would answer its template. -/
def surroundings [Matcher μ] (b : Bench μ) : Surroundings where
  tries := b.template.triesRemaining b.card
  score reference candidate phase :=
    (Matcher.score b.template.matcher reference candidate phase).1
  restored := ((TryCounter.restoreTries b.template.counter).exec b.card.memory).1
  spent := ((TryCounter.spend b.template.counter).exec b.card.memory).1.map fun _ => ()
  refilled limit := ((TryCounter.refill b.template.counter limit).exec b.card.memory).1

/-- Use a template. -/
def use [Matcher μ] : Template.Use → Act (Bench μ) (Option Int16)
  | .init data => (fun _ => none) <$> update fun t => t.init data
  | .update data => (fun _ => none) <$> onTemplate (Template.update data)
  | .finish => (fun _ => none) <$> onTemplate Template.finish
  | .initMatch candidate => some <$> initMatch candidate
  | .matchData candidate => some <$> matchData candidate
  | .reset => (fun _ => none) <$> update Template.reset
  | .resetTryLimit limit => (fun _ => none) <$> resetTryLimit limit

variable [Matcher μ]

/-- An act on a bench, given by how it ends, is a transition of the automaton. -/
structure Takes (transition : Transition) (b : Bench μ)
    (o : Except Fault (Option Int16) × Bench μ) : Prop where
  answer : o.1 = transition.answer
  target : o.2.template.Encodes transition.target
  matcher : o.2.template.matcher = Matcher.after b.template.matcher transition.asked

variable {b : Bench μ} {l : Lifecycle}

theorem takes_consult_settle {reference : List UInt8} {filled : reference ≠ []}
    {engagement : Engagement} (h : b.template.Encodes (.enrolled reference filled engagement))
    (hfresh : engagement ≠ .validated) (candidate : List UInt8) (phase : MatchPhase) :
    Takes (Lifecycle.consult b.surroundings reference filled candidate phase) b
      (Act.exec (some <$> do
        let score ← consult candidate phase
        settle score) b) := by
  obtain ⟨hreference, henrolment, hinitialized, hvalidated, hsession⟩ := h
  have hunvalidated : b.template.validated = false := by
    rw [hvalidated]
    cases engagement <;> first | rfl | exact absurd rfl hfresh
  let scored := Matcher.score b.template.matcher b.template.reference candidate phase
  let b' : Bench μ := { b with template := { b.template with matcher := scored.2 } }
  have hexec : Act.exec (do
      let score ← consult candidate phase
      settle score) b = (settle scored.1).exec b' :=
    Act.exec_bind_of_ok (show (consult candidate phase).exec b = (.ok scored.1, b') from rfl)
  have hmatcher : scored.2 =
      Matcher.after b.template.matcher (some ⟨reference, candidate, phase⟩) := by
    show (Matcher.score b.template.matcher b.template.reference candidate phase).2 = _
    rw [hreference]
    rfl
  have hscore : b.surroundings.score reference candidate phase = scored.1 := by
    show (Matcher.score b.template.matcher reference candidate phase).1 =
      (Matcher.score b.template.matcher b.template.reference candidate phase).1
    rw [hreference]
    rfl
  rw [Act.exec_map, hexec]
  unfold Lifecycle.consult
  dsimp only
  rw [hscore]
  rcases hs : MatchOutcome.ofScore scored.1 with e | n | n | _
  case error =>
    rw [exec_settle_of_error hs]
    exact ⟨rfl, ⟨hreference, henrolment, hinitialized, hunvalidated, rfl⟩, hmatcher⟩
  case ok.needsMoreData =>
    rw [exec_settle_of_more hs]
    exact ⟨rfl, ⟨hreference, henrolment, hinitialized, hunvalidated, rfl⟩, hmatcher⟩
  case ok.success =>
    rw [exec_settle_of_success hs rfl]
    refine ⟨?_, ⟨hreference, henrolment, hinitialized, rfl, rfl⟩, hmatcher⟩
    show Except.map some (Except.map (fun _ => scored.1) b.surroundings.restored) = _
    rcases b.surroundings.restored with _ | _ <;> rfl
  case ok.failure =>
    rw [exec_settle_of_failure hs rfl]
    refine ⟨?_, ⟨hreference, henrolment, hinitialized, hunvalidated, rfl⟩, hmatcher⟩
    show Except.map some
      (Except.map (fun _ => scored.1) ((TryCounter.spend _).exec b.card.memory).1) = _
    unfold surroundings
    dsimp only
    rcases ((TryCounter.spend b.template.counter).exec b.card.memory).1 with _ | _ <;> rfl

/-- A use that is refused changes nothing at all. -/
theorem exec_use_of_refused (h : b.template.Encodes l) {u : Template.Use} {e : Fault}
    (hu : l.Refuses u e) : (use u).exec b = (.error e, b) := by
  cases hu with
  | @update data hl =>
    have henrolment := h.enrolment.trans hl
    show (((fun _ => none) <$> onTemplate (Template.update data)).exec b) = _
    rw [Act.exec_map, onTemplate, Act.exec_zoom, Template.update, Act.exec_step, henrolment]
    rfl
  | finish hl =>
    have henrolment := h.enrolment.trans hl
    show (((fun _ => none) <$> onTemplate Template.finish).exec b) = _
    rw [Act.exec_map, onTemplate, Act.exec_zoom, Template.finish,
      Act.exec_bind_of_ok (Act.exec_read _ _), henrolment]
    rfl
  | @initMatch candidate hl =>
    have hrequired : b.template.requireInitialized = .error .notEnrolled := by
      rw [h.requireInitialized, hl]
      rfl
    show ((some <$> initMatch candidate).exec b) = _
    rw [Act.exec_map, initMatch,
      Act.exec_query_bind_of_error (fun b : Bench μ => b.template.requireInitialized) hrequired]
    rfl
  | @matchData candidate hl =>
    have hclosed : b.template.sessionOpen = false := by
      rw [h.sessionOpen]
      exact beq_eq_false_iff_ne.mpr hl
    show ((some <$> matchData candidate).exec b) = _
    rw [Act.exec_map, matchData, Act.exec_bind_of_ok (Act.exec_read _ _), hclosed]
    rfl

theorem takes_initMatch {reference : List UInt8} {filled : reference ≠ []}
    {engagement : Engagement} (h : b.template.Encodes (.enrolled reference filled engagement))
    (candidate : List UInt8) :
    Takes (Lifecycle.next b.surroundings (.enrolled reference filled engagement)
      (.initMatch candidate)) b ((use (.initMatch candidate)).exec b) := by
  let b' : Bench μ := { b with template := b.template.reset }
  have hreset : b'.template.Encodes (.enrolled reference filled .idle) := h.reset
  have hrequired : b.template.requireInitialized = .ok () := h.requireInitialized
  have hexec : (initMatch candidate).exec b = Act.exec (do
      let left ← Act.query fun b => b.template.triesRemaining b.card
      if left = 0 then
        onMemory (.note (.templateBlocked b.template.bioType))
        pure 0
      else
        let score ← consult candidate .initial
        settle score) b' := by
    unfold initMatch
    rw [Act.exec_query_bind_of_ok (fun b : Bench μ => b.template.requireInitialized) hrequired,
      Act.exec_bind_of_ok (exec_update Template.reset b), Act.exec_bind_of_ok (Act.exec_read _ _)]
    rfl
  show Takes _ b ((some <$> initMatch candidate).exec b)
  rw [Act.exec_map, hexec]
  unfold Lifecycle.next
  dsimp only
  have hsame : b'.template.triesRemaining b'.card = b.surroundings.tries := rfl
  rcases htries : b.surroundings.tries with e | left
  · rw [Act.exec_query_bind_of_error (fun b : Bench μ => b.template.triesRemaining b.card)
      (hsame.trans htries)]
    exact ⟨rfl, hreset, rfl⟩
  · rw [Act.exec_query_bind_of_ok (fun b : Bench μ => b.template.triesRemaining b.card)
      (hsame.trans htries)]
    by_cases hleft : left = 0
    · rw [if_pos hleft, hleft]
      exact ⟨rfl, hreset, rfl⟩
    · have htakes := takes_consult_settle hreset (by decide) candidate .initial
      rw [Act.exec_map] at htakes
      simp only [hleft, if_false]
      exact ⟨htakes.answer, htakes.target, htakes.matcher⟩

/-- Every use of a template is a transition of the automaton. -/
theorem takes_use (h : b.template.Encodes l) (u : Template.Use) :
    Takes (l.next b.surroundings u) b ((use u).exec b) := by
  have hrefused : ∀ {e}, l.Refuses u e → Takes (l.next b.surroundings u) b ((use u).exec b) := by
    intro e hu
    rw [hu.next, exec_use_of_refused h hu]
    exact ⟨rfl, h, rfl⟩
  cases u
  case init data => exact ⟨rfl, ⟨rfl, rfl, rfl, rfl, rfl⟩, rfl⟩
  case update data =>
    cases l
    case enrolling given =>
      show Takes _ b (((fun _ => none) <$> onTemplate (Template.update data)).exec b)
      rw [Act.exec_map, onTemplate, Act.exec_zoom, Template.update, Act.exec_step, h.enrolment]
      exact ⟨rfl, ⟨h.reference, rfl, h.initialized, h.validated, h.sessionOpen⟩, rfl⟩
    all_goals exact hrefused (.update rfl)
  case finish =>
    cases l
    case enrolling given =>
      show Takes _ b (((fun _ => none) <$> onTemplate Template.finish).exec b)
      rw [Act.exec_map, onTemplate, Act.exec_zoom, Template.finish,
        Act.exec_bind_of_ok (Act.exec_read _ _), h.enrolment]
      dsimp only [Lifecycle.given?]
      rw [Act.exec_bind_of_ok (Act.exec_modify _ _), Act.exec_ite]
      unfold Lifecycle.next
      dsimp only
      by_cases hfilled : given ≠ []
      · rw [dif_pos hfilled, if_neg (by simpa using hfilled)]
        exact ⟨rfl, ⟨rfl, rfl, rfl, h.validated, h.sessionOpen⟩, rfl⟩
      · rw [dif_neg hfilled, if_pos (by simpa using hfilled)]
        exact ⟨rfl, ⟨h.reference, rfl, h.initialized, h.validated, h.sessionOpen⟩, rfl⟩
    all_goals exact hrefused (.finish rfl)
  case initMatch candidate =>
    cases l
    case enrolled => exact takes_initMatch h candidate
    all_goals exact hrefused (.initMatch rfl)
  case matchData candidate =>
    rcases l with _ | _ | ⟨reference, filled, _ | _ | _⟩
    case enrolled.session =>
      have htakes := takes_consult_settle h (by decide) candidate .continuation
      have hopen : b.template.sessionOpen = true := h.sessionOpen
      show Takes _ b ((some <$> matchData candidate).exec b)
      rw [Act.exec_map] at htakes ⊢
      rw [matchData, Act.exec_bind_of_ok (Act.exec_read _ _), if_pos hopen]
      exact htakes
    all_goals exact hrefused (.matchData fun hsession => by cases hsession)
  case reset => exact ⟨rfl, h.reset, rfl⟩
  case resetTryLimit limit =>
    show Takes _ b (((fun _ => none) <$> resetTryLimit limit).exec b)
    rw [Act.exec_map, resetTryLimit, Act.exec_bind_of_ok (Act.exec_read _ _), Act.exec_bind,
      exec_onMemory]
    unfold Lifecycle.next
    dsimp only
    have hrefilled : b.surroundings.refilled limit =
        ((TryCounter.refill b.template.counter limit).exec b.card.memory).1 := rfl
    rw [hrefilled]
    rcases ((TryCounter.refill b.template.counter limit).exec b.card.memory).1 with e | _
    · exact ⟨rfl, h, rfl⟩
    · exact ⟨rfl, h.reset, rfl⟩

end Bench

end SmartCard
