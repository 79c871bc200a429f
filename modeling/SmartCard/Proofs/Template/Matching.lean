-- SUMMARY: What one command on a template does to its try counter and to the record of its matcher.
import SmartCard.Proofs.Session.Effects
import SmartCard.Proofs.Template.Counter

/-!
# Turns

A `Recorder` is a matcher that keeps every score it hands out, so that failed matches can be counted
where the matcher is asked and not where the card says so. A `Turn` is what one command can do to
the record and to the counter together. The turn to look out for is `Turn.torn`: the matcher has
failed a candidate, and the tear that struck the update of the counter has kept the try.
-/

namespace SmartCard

variable {μ : Type}

/-- A matcher that keeps the scores it hands out, the newest first. -/
structure Recorder (μ : Type) where
  matcher : μ
  scores : List Int16

instance [Matcher μ] : Matcher (Recorder μ) where
  score r reference candidate phase :=
    let scored := Matcher.score r.matcher reference candidate phase
    (scored.1, ⟨scored.2, scored.1 :: r.scores⟩)
  publicData r reference := Matcher.publicData r.matcher reference

/-- Whether a score fails a candidate. -/
def isFailing (score : Int16) : Bool := 0 ≤ score && score < minimumSuccessScore

/-- How often the matcher has failed a candidate. -/
def Recorder.failures (r : Recorder μ) : Nat := r.scores.countP isFailing

/-- Whether a match succeeded. -/
def isSuccessful : Except Fault Int16 → Bool
  | .ok score => minimumSuccessScore ≤ score
  | .error _ => false

/-- Whether a command lost power. -/
def lostPower {α : Type} : Except Fault α → Bool
  | .ok _ => false
  | .error e => e.isPowerLoss

/-- What a command can do to a counter with `left` tries while the matcher fails `n` candidates:
nothing, or refill it, or spend a try on a failure, or fail to spend it. -/
inductive Turn (left limit' left' : UInt8) : Nat → (refilled lost : Bool) → Prop where
  | none {lost : Bool} : left' = left → Turn left limit' left' 0 false lost
  | refilled : left' = limit' → Turn left limit' left' 0 true false
  | spent : left ≠ 0 → left' = left - 1 → Turn left limit' left' 1 false false
  | torn : left' = left → Turn left limit' left' 1 false true

/-! ## Scores -/

theorem isFailing_iff {score : Int16} :
    isFailing score = true ↔ ∃ n, MatchOutcome.ofScore score = .ok (.failure n) := by
  unfold isFailing MatchOutcome.ofScore
  by_cases hmore : score = needsMoreDataScore
  · subst hmore
    simp [needsMoreDataScore]
  · by_cases hsuccess : minimumSuccessScore ≤ score
    · simp [hmore, hsuccess, Int16.not_lt.mpr hsuccess]
    · by_cases hpos : 0 ≤ score
      · simp [hmore, hsuccess, hpos, Int16.not_le.mp hsuccess]
      · simp [hmore, hsuccess, hpos]

theorem minimumSuccessScore_le_iff {score : Int16} :
    minimumSuccessScore ≤ score ↔ ∃ n, MatchOutcome.ofScore score = .ok (.success n) := by
  unfold MatchOutcome.ofScore
  by_cases hmore : score = needsMoreDataScore
  · subst hmore
    simp [needsMoreDataScore, minimumSuccessScore]
  · by_cases hsuccess : minimumSuccessScore ≤ score
    · simp [hmore, hsuccess]
    · by_cases hpos : 0 ≤ score
      · simp [hmore, hsuccess, hpos]
      · simp [hmore, hsuccess, hpos]

theorem isFailing_eq_false {score : Int16} {r : Except Fault MatchOutcome}
    (hs : MatchOutcome.ofScore score = r) (hr : ∀ n, r ≠ .ok (.failure n)) :
    isFailing score = false := by
  rw [Bool.eq_false_iff, Ne, isFailing_iff, hs]
  rintro ⟨n, hn⟩
  exact hr n hn

theorem isSuccessful_eq_false {score : Int16} {r : Except Fault MatchOutcome}
    (hs : MatchOutcome.ofScore score = r) (hr : ∀ n, r ≠ .ok (.success n)) :
    isSuccessful (.ok score) = false := by
  apply decide_eq_false
  rw [minimumSuccessScore_le_iff, hs]
  rintro ⟨n, hn⟩
  exact hr n hn

/-! ## Acts on a template alone -/

namespace Template

/-- A template with the counter and the matcher of another one, and no session that the other had
not. -/
structure Keeps (t t' : Template μ) : Prop where
  counter : t'.counter = t.counter
  matcher : t'.matcher = t.matcher
  session : t'.sessionOpen = true → t.sessionOpen = true

theorem keeps_init (data : List UInt8) (t : Template μ) : t.Keeps (t.init data) := ⟨rfl, rfl, nofun⟩

theorem keeps_reset (t : Template μ) : t.Keeps t.reset := ⟨rfl, rfl, nofun⟩

theorem keeps_update (data : List UInt8) (t : Template μ) : t.Keeps ((update data).exec t).2 := by
  rw [update, Act.exec_step]
  rcases t.enrolment with _ | given
  · exact ⟨rfl, rfl, id⟩
  · exact ⟨rfl, rfl, id⟩

theorem keeps_finish (t : Template μ) : t.Keeps (finish.exec t).2 := by
  rw [finish, Act.exec_bind_of_ok (Act.exec_read _ _)]
  rcases t.enrolment with _ | data
  · exact ⟨rfl, rfl, id⟩
  · dsimp only
    rw [Act.exec_bind_of_ok (Act.exec_modify _ _), Act.exec_ite]
    split
    · exact ⟨rfl, rfl, id⟩
    · exact ⟨rfl, rfl, id⟩

end Template

/-! ## Turns on a bench -/

namespace Bench

/-- A template with its counter. A match session is open only while tries are left. -/
structure Guarded (array : ArrayRef) (limit left : UInt8) (b : Bench μ) : Prop where
  counter : b.template.counter = array
  session : b.template.sessionOpen = true → left ≠ 0
  holds : TryCounter.Holds b.card.config array limit left b.card.memory

variable {array : ArrayRef} {limit left : UInt8} {b : Bench μ}

/-- One turn on a bench whose counter has `left` tries. -/
def Turned (array : ArrayRef) (left : UInt8) (n : Nat) (refilled lost : Bool) (b b' : Bench μ) :
    Prop :=
  ∃ limit' left', Guarded array limit' left' b' ∧ b'.card.config = b.card.config ∧
    Turn left limit' left' n refilled lost

theorem exec_settle_of_error {score : Int16} {e : Fault}
    (hs : MatchOutcome.ofScore score = .error e) (b : Bench μ) :
    (settle score).exec b =
      (.error e, { b with template := { b.template with sessionOpen := false } }) := by
  unfold settle
  rw [Act.exec_bind_of_ok (Act.exec_read _ _), hs]
  rfl

theorem exec_settle_of_more {score : Int16} (hs : MatchOutcome.ofScore score = .ok .needsMoreData)
    (b : Bench μ) :
    (settle score).exec b =
      (.ok score, { b with template := { b.template with sessionOpen := true } }) := by
  unfold settle
  rw [Act.exec_bind_of_ok (Act.exec_read _ _), hs]
  rfl

theorem exec_settle_of_success {score n : Int16}
    (hs : MatchOutcome.ofScore score = .ok (.success n))
    {b : Bench μ} {r : Except Fault Unit} {m : Memory}
    (hm : (TryCounter.restoreTries b.template.counter).exec b.card.memory = (r, m)) :
    (settle score).exec b = (r.map fun _ => score,
      ⟨{ b.card with memory := m },
        { b.template with sessionOpen := false, validated := true }⟩) := by
  unfold settle
  rw [Act.exec_bind_of_ok (Act.exec_read _ _), hs]
  simp only [Act.exec_bind, exec_update, exec_onMemory, hm, Act.exec_note, Act.exec_pure]
  rcases r with _ | _ <;> rfl

theorem exec_settle_of_failure {score n : Int16}
    (hs : MatchOutcome.ofScore score = .ok (.failure n))
    {b : Bench μ} {r : Except Fault UInt8} {m : Memory}
    (hm : (TryCounter.spend b.template.counter).exec b.card.memory = (r, m)) :
    (settle score).exec b = (r.map fun _ => score,
      ⟨{ b.card with memory := m }, { b.template with sessionOpen := false }⟩) := by
  unfold settle
  rw [Act.exec_bind_of_ok (Act.exec_read _ _), hs]
  simp only [Act.exec_bind, exec_update, exec_onMemory, hm, Act.exec_note, Act.exec_pure]
  rcases r with _ | _ <;> rfl

/-- A score is settled in one turn. -/
theorem Guarded.settle (h : Guarded array limit left b) (hleft : left ≠ 0) (score : Int16) :
    Turned array left (if isFailing score then 1 else 0)
      (isSuccessful ((Bench.settle score).exec b).1)
      (lostPower ((Bench.settle score).exec b).1) b ((Bench.settle score).exec b).2 := by
  obtain ⟨rfl, _, hholds⟩ := h
  rcases hs : MatchOutcome.ofScore score with e | n | n | _
  case error =>
    have hfailing : isFailing score = false := isFailing_eq_false hs nofun
    rw [exec_settle_of_error hs, hfailing]
    exact ⟨limit, left, ⟨rfl, nofun, hholds⟩, rfl, .none rfl⟩
  case ok.needsMoreData =>
    have hfailing : isFailing score = false := isFailing_eq_false hs nofun
    have hsuccess : isSuccessful (.ok score) = false := isSuccessful_eq_false hs nofun
    rw [exec_settle_of_more hs, hfailing, hsuccess]
    exact ⟨limit, left, ⟨rfl, fun _ => hleft, hholds⟩, rfl, .none rfl⟩
  case ok.success =>
    have hfailing : isFailing score = false := isFailing_eq_false hs nofun
    have hsuccess : isSuccessful (.ok score) = true :=
      decide_eq_true (minimumSuccessScore_le_iff.mpr ⟨n, hs⟩)
    have hupdated := hholds.exec_restoreTries
    rcases hm : (TryCounter.restoreTries b.template.counter).exec b.card.memory with ⟨r, m⟩
    rw [hm] at hupdated
    rw [exec_settle_of_success hs hm, hfailing]
    cases hupdated with
    | whole hholds' =>
      rw [Except.map, hsuccess]
      exact ⟨limit, limit, ⟨rfl, nofun, hholds'⟩, rfl, .refilled rfl⟩
    | torn _ hholds' => exact ⟨_, left, ⟨rfl, nofun, hholds'⟩, rfl, .none rfl⟩
  case ok.failure =>
    have hfailing : isFailing score = true := isFailing_iff.mpr ⟨n, hs⟩
    have hsuccess : isSuccessful (.ok score) = false := isSuccessful_eq_false hs nofun
    obtain ⟨r, m, hm, hupdated⟩ := hholds.exec_spend hleft
    rw [exec_settle_of_failure hs hm, hfailing]
    cases hupdated with
    | whole hholds' =>
      rw [Except.map, Except.map, hsuccess]
      exact ⟨limit, left - 1, ⟨rfl, nofun, hholds'⟩, rfl, .spent hleft rfl⟩
    | @torn _ e _ he hholds' =>
      refine ⟨_, left, ⟨rfl, nofun, hholds'⟩, rfl, ?_⟩
      rw [Except.map, Except.map, lostPower, he]
      exact .torn rfl

theorem matcher_settle (score : Int16) (b : Bench μ) :
    ((Bench.settle score).exec b).2.template.matcher = b.template.matcher := by
  rcases hs : MatchOutcome.ofScore score with e | n | n | _
  · rw [exec_settle_of_error hs]
  · rcases hm : (TryCounter.restoreTries b.template.counter).exec b.card.memory with ⟨r, m⟩
    rw [exec_settle_of_success hs hm]
  · rcases hm : (TryCounter.spend b.template.counter).exec b.card.memory with ⟨r, m⟩
    rw [exec_settle_of_failure hs hm]
  · rw [exec_settle_of_more hs]

/-! ## Commands on a template -/

variable [Matcher μ] {b : Bench (Recorder μ)}

/-- An act on a bench is one turn of its counter. The matcher fails as many candidates as the turn
says. -/
def TakesTurn {α : Type} (array : ArrayRef) (left : UInt8) (b : Bench (Recorder μ))
    (x : Act (Bench (Recorder μ)) α) (refills : Except Fault α → Bool) : Prop :=
  ∃ n, (x.exec b).2.template.matcher.failures = b.template.matcher.failures + n ∧
    Turned array left n (refills (x.exec b).1) (lostPower (x.exec b).1) b (x.exec b).2

omit [Matcher μ] in
/-- A turn that changes nothing but the session. -/
theorem TakesTurn.none {α : Type} {x : Act (Bench (Recorder μ)) α} {refills : Except Fault α → Bool}
    {r : Except Fault α} {b' : Bench (Recorder μ)} (hexec : x.exec b = (r, b'))
    (h : Guarded array limit left b') (hconfig : b'.card.config = b.card.config)
    (hmatcher : b'.template.matcher = b.template.matcher) (hr : refills r = false) :
    TakesTurn array left b x refills := by
  unfold TakesTurn
  rw [hexec, hr, hmatcher]
  exact ⟨0, rfl, limit, left, h, hconfig, .none rfl⟩

/-- Asking the matcher and settling its score. -/
theorem Guarded.consult_settle (h : Guarded array limit left b) (hleft : left ≠ 0)
    (candidate : List UInt8) (phase : MatchPhase) :
    TakesTurn array left b (do
      let score ← consult candidate phase
      Bench.settle score) isSuccessful := by
  let scored := Matcher.score b.template.matcher b.template.reference candidate phase
  let b' : Bench (Recorder μ) := { b with template := { b.template with matcher := scored.2 } }
  have hexec : Act.exec (do
      let score ← consult candidate phase
      Bench.settle score) b = (Bench.settle scored.1).exec b' :=
    Act.exec_bind_of_ok (show (consult candidate phase).exec b = (.ok scored.1, b') from rfl)
  have hguarded : Guarded array limit left b' := ⟨h.counter, h.session, h.holds⟩
  unfold TakesTurn
  rw [hexec, matcher_settle]
  exact ⟨_, List.countP_cons .., hguarded.settle hleft scored.1⟩

theorem Guarded.initMatch (h : Guarded array limit left b) (candidate : List UInt8) :
    TakesTurn array left b (Bench.initMatch candidate) isSuccessful := by
  let b' : Bench (Recorder μ) := { b with template := b.template.reset }
  have hguarded : Guarded array limit left b' := ⟨h.counter, nofun, h.holds⟩
  have hremaining : b'.template.triesRemaining b'.card = .ok left := by
    unfold Template.triesRemaining
    rw [hguarded.counter, hguarded.holds.remaining_eq]
  rcases hinit : b.template.requireInitialized with e | _
  · have hexec : (Bench.initMatch candidate).exec b = (.error e, b) :=
      Act.exec_query_bind_of_error (fun b : Bench (Recorder μ) =>
        b.template.requireInitialized) hinit
    exact .none hexec h rfl rfl rfl
  · have hexec : (Bench.initMatch candidate).exec b = Act.exec (if left = 0 then do
        Bench.onMemory (Act.note (.templateBlocked b.template.bioType))
        pure 0
      else do
        let score ← consult candidate .initial
        Bench.settle score) b' := by
      unfold Bench.initMatch
      rw [Act.exec_query_bind_of_ok (fun b : Bench (Recorder μ) =>
        b.template.requireInitialized) hinit,
        Act.exec_bind_of_ok (exec_update Template.reset b), Act.exec_bind_of_ok (Act.exec_read _ _),
        Act.exec_query_bind_of_ok (fun b' : Bench (Recorder μ) =>
          b.template.reset.triesRemaining b'.card)
          hremaining]
      rfl
    by_cases hleft : left = 0
    · rw [if_pos hleft] at hexec
      exact .none hexec hguarded rfl rfl rfl
    · rw [if_neg hleft] at hexec
      have hturn := hguarded.consult_settle hleft candidate .initial
      unfold TakesTurn at hturn ⊢
      rw [hexec]
      exact hturn

theorem Guarded.matchData (h : Guarded array limit left b) (candidate : List UInt8) :
    TakesTurn array left b (Bench.matchData candidate) isSuccessful := by
  have hexec : (Bench.matchData candidate).exec b = Act.exec (if b.template.sessionOpen then do
      let score ← consult candidate .continuation
      Bench.settle score
    else Act.fail .noOpenSession) b := Act.exec_bind_of_ok (Act.exec_read _ _)
  by_cases hopen : b.template.sessionOpen = true
  · rw [if_pos hopen] at hexec
    have hturn := h.consult_settle (h.session hopen) candidate .continuation
    unfold TakesTurn at hturn ⊢
    rw [hexec]
    exact hturn
  · rw [if_neg hopen] at hexec
    exact .none hexec h rfl rfl rfl

omit [Matcher μ] in
/-- A new try limit refills the counter, unless power is lost. -/
theorem Guarded.resetTryLimit (h : Guarded array limit left b) (n : UInt8) :
    TakesTurn array left b (Bench.resetTryLimit n) Except.isOk := by
  obtain ⟨rfl, hsession, hholds⟩ := h
  have hexec : (Bench.resetTryLimit n).exec b = Act.exec (do
      Bench.onMemory (TryCounter.refill b.template.counter n)
      Bench.update Template.reset) b := Act.exec_bind_of_ok (Act.exec_read _ _)
  unfold TakesTurn
  rw [hexec]
  simp only [Act.exec_bind, exec_update, exec_onMemory]
  rcases hholds.exec_refill n with ⟨_, hzero⟩ | hupdated
  · rw [hzero]
    exact ⟨0, rfl, limit, left, ⟨rfl, hsession, hholds⟩, rfl, .none rfl⟩
  · rcases hm : (TryCounter.refill b.template.counter n).exec b.card.memory with ⟨r, m⟩
    rw [hm] at hupdated
    cases hupdated with
    | whole hholds' => exact ⟨0, rfl, n, n, ⟨rfl, nofun, hholds'⟩, rfl, .refilled rfl⟩
    | torn _ hholds' => exact ⟨0, rfl, _, left, ⟨rfl, hsession, hholds'⟩, rfl, .none rfl⟩

omit [Matcher μ] in
theorem Guarded.onTemplate {α : Type} (h : Guarded array limit left b)
    {x : Act (Template (Recorder μ)) α} (hkeeps : b.template.Keeps (x.exec b.template).2) :
    TakesTurn array left b (Bench.onTemplate x) fun _ => false := by
  have hexec : (Bench.onTemplate x).exec b =
      ((x.exec b.template).1, { b with template := (x.exec b.template).2 }) := rfl
  have hguarded : Guarded array limit left { b with template := (x.exec b.template).2 } :=
    ⟨hkeeps.counter.trans h.counter, fun hopen => h.session (hkeeps.session hopen), h.holds⟩
  exact .none hexec hguarded rfl hkeeps.matcher rfl

omit [Matcher μ] in
theorem Guarded.query {α : Type} (h : Guarded array limit left b)
    (f : Bench (Recorder μ) → Except Fault α) :
    TakesTurn array left b (Act.query f) fun _ => false := .none rfl h rfl rfl rfl

end Bench

end SmartCard
