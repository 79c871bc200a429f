-- SUMMARY: Which commands validate a template, and how long a validation lasts.
import SmartCard.Proofs.Session.Lifecycles

/-!
# Validation

The record of a matcher tells when it was asked and what it found. A template is validated exactly
while the last candidate that its matcher was asked about was a success, and nothing has withdrawn
the validation since. The match need not have told the success, though: the template is validated
before its try counter is, and where the update of the counter fails the match answers with that
failure and leaves the template validated.
-/

namespace SmartCard

variable {μ : Type}

namespace Session

/-- The scores that the matcher of the template at a position has given, the newest first. -/
def scores (position : Nat) (s : Session (Recorder μ)) : List Int16 :=
  match s.templates[position]? with
  | some t => t.matcher.scores
  | none => []

def validated (position : Nat) (s : Session μ) : Bool :=
  match s.templates[position]? with
  | some t => t.validated
  | none => false

def isEnrolled (position : Nat) (s : Session μ) : Bool :=
  match s.templates[position]? with
  | some t => t.initialized
  | none => false

variable [Matcher μ]

/-- A command has the matcher of the template at a position find that a candidate succeeds. -/
structure Finds (position : Nat) (s : Session (Recorder μ)) (command : Command (Recorder μ))
    (score : Int16) : Prop where
  recorded : scores position (step command s).state = score :: scores position s
  success : minimumSuccessScore ≤ score

/-- Whether a command withdraws a validation of the template at a position. It has the matcher asked
again, or is a reset, a new enrolment, another match of what is enrolled or a new try limit. -/
def withdraws (position : Nat) (s : Session (Recorder μ)) (command : Command (Recorder μ)) : Bool :=
  scores position (step command s).state != scores position s ||
    match command with
    | .templateInit other _ | .templateReset other => other == position
    | .templateInitMatch other _ => other == position && isEnrolled position s
    | .templateResetTryLimit other _ => other == position && (step command s).result.isOk
    | _ => false

/-- Whether a validation lasts while commands are carried out. -/
def lasts (position : Nat) (s : Session (Recorder μ)) : List (Command (Recorder μ)) → Bool
  | [] => true
  | c :: more => !withdraws position s c && lasts position (step c s).state more

variable {s s₀ : Session (Recorder μ)} {t : Template (Recorder μ)} {position : Nat}
  {command : Command (Recorder μ)} {u : Template.Use} {l : Lifecycle}

/-! ## Commands -/

omit [Matcher μ] in
theorem Stands.validated_eq (h : Stands position l s) : validated position s = l.isValidated := by
  obtain ⟨t, ht, hl⟩ := h
  unfold validated
  rw [ht]
  exact hl.validated

theorem Finds.changes {score : Int16} (h : Finds position s command score) :
    scores position (step command s).state ≠ scores position s := by
  rw [h.recorded]
  exact List.cons_ne_self score _

theorem scores_of_unused (ht : s.templates[position]? = some t)
    (hu : ∀ u, command.use? ≠ some (position, u)) :
    scores position (step command s).state = scores position s := by
  unfold scores
  rw [getElem?_templates_of_unused ht hu, ht]

/-- The record grows by the score of a consultation. -/
theorem scores_use (ht : s.templates[position]? = some t) (h : t.Encodes l)
    (hu : command.use? = some (position, u)) :
    scores position (step command s).state =
      match (l.next (Bench.surroundings ⟨s.card, t⟩) u).asked with
      | none => scores position s
      | some call => (Bench.surroundings ⟨s.card, t⟩).score call.reference call.candidate call.phase
          :: scores position s := by
  obtain ⟨t', ht', _, hmatcher⟩ := (undergoes_use ht h hu).target
  unfold scores
  rw [ht, ht']
  dsimp only
  rw [hmatcher]
  rcases (l.next (Bench.surroundings ⟨s.card, t⟩) u).asked with _ | call
  · rfl
  · rfl

/-- When the record changes, the template is used, and its matcher is asked. -/
theorem consults_of_changed (ht : s.templates[position]? = some t) (h : t.Encodes l)
    (hchanged : scores position (step command s).state ≠ scores position s) :
    ∃ u, ∃ call : Consultation, ∃ filled, command.use? = some (position, u) ∧
      l.next (Bench.surroundings ⟨s.card, t⟩) u =
        Lifecycle.consult (Bench.surroundings ⟨s.card, t⟩) call.reference filled call.candidate
          call.phase ∧
      scores position (step command s).state =
        (Bench.surroundings ⟨s.card, t⟩).score call.reference call.candidate call.phase ::
          scores position s := by
  by_cases hu : ∃ u, command.use? = some (position, u)
  · obtain ⟨u, hu⟩ := hu
    have hscores := scores_use ht h hu
    rcases hasked : (l.next (Bench.surroundings ⟨s.card, t⟩) u).asked with _ | call
    · rw [hasked] at hscores
      exact absurd hscores hchanged
    · rw [hasked] at hscores
      obtain ⟨filled, _, _, hnext⟩ := Lifecycle.next_of_asked hasked
      exact ⟨u, call, filled, hu, hnext, hscores⟩
  · exact absurd (scores_of_unused ht fun u hsome => hu ⟨u, hsome⟩) hchanged

/-- A command that does not have the matcher asked withdraws a validation as its use does. -/
theorem withdraws_use (ht : s.templates[position]? = some t) (h : t.Encodes l)
    (hu : command.use? = some (position, u))
    (hsame : scores position (step command s).state = scores position s) :
    withdraws position s command = l.withdraws (Bench.surroundings ⟨s.card, t⟩) u := by
  have hanswer := (undergoes_use ht h hu).answer
  have henrolled : isEnrolled position s = l.engagement?.isSome := by
    unfold isEnrolled
    rw [ht]
    exact h.initialized
  unfold withdraws
  rw [hsame, bne_self_eq_false, Bool.false_or]
  cases command <;> cases hu
  case templateInit => exact beq_self_eq_true position
  case templateReset => exact beq_self_eq_true position
  case templateInitMatch candidate =>
    dsimp only
    rw [beq_self_eq_true, Bool.true_and, henrolled]
    rfl
  case templateResetTryLimit limit =>
    dsimp only
    rw [beq_self_eq_true, Bool.true_and, hanswer]
    unfold Lifecycle.next Lifecycle.withdraws
    dsimp only
    rcases (Bench.surroundings ⟨s.card, t⟩).refilled limit with e | _
    · rfl
    · rfl
  all_goals rfl

/-- A command that does not use a template does not withdraw its validation. -/
theorem withdraws_of_unused (ht : s.templates[position]? = some t)
    (hu : ∀ u, command.use? ≠ some (position, u)) : withdraws position s command = false := by
  have hother : ∀ {other u}, command.use? = some (other, u) → (other == position) = false := by
    intro other u hsome
    rw [beq_eq_false_iff_ne]
    rintro rfl
    exact hu u hsome
  unfold withdraws
  rw [scores_of_unused ht hu, bne_self_eq_false, Bool.false_or]
  cases command
  case templateInit => exact hother rfl
  case templateReset => exact hother rfl
  case templateInitMatch =>
    dsimp only
    rw [hother rfl, Bool.false_and]
  case templateResetTryLimit =>
    dsimp only
    rw [hother rfl, Bool.false_and]
  all_goals rfl

/-- While the matcher is not asked, a validation lasts until it is withdrawn, and there is no new
one. -/
theorem Stands.validated_of_same (h : Stands position l s)
    (hsame : scores position (Session.step command s).state = scores position s) :
    validated position (Session.step command s).state =
      (validated position s && !withdraws position s command) := by
  rw [(h.step command).validated_eq, h.validated_eq]
  obtain ⟨t, ht, hl⟩ := h
  by_cases hu : ∃ u, command.use? = some (position, u)
  · obtain ⟨u, hu⟩ := hu
    have hscores := scores_use ht hl hu
    rcases hasked : (l.next (Bench.surroundings ⟨s.card, t⟩) u).asked with _ | call
    · rw [lifecycleAfter_use ht hu, withdraws_use ht hl hu hsame, Lifecycle.isValidated_next hasked]
    · rw [hasked] at hscores
      exact absurd (hscores.symm.trans hsame) (List.cons_ne_self _ _)
  · have hunused : ∀ u, command.use? ≠ some (position, u) := fun u hsome => hu ⟨u, hsome⟩
    rw [lifecycleAfter_of_unused hunused, withdraws_of_unused ht hunused]
    exact (Bool.and_true _).symm

/-- A template is validated after a command if the command found a success, or if it was validated
and the command does not withdraw that. -/
theorem Stands.validated_step (h : Stands position l s) (command : Command (Recorder μ)) :
    validated position (Session.step command s).state = true ↔
      (∃ score, Finds position s command score) ∨
        validated position s = true ∧ withdraws position s command = false := by
  by_cases hsame : scores position (Session.step command s).state = scores position s
  · rw [h.validated_of_same hsame, Bool.and_eq_true, Bool.not_eq_true']
    exact ⟨.inr, fun hor => hor.resolve_left fun ⟨_, hfinds⟩ => hfinds.changes hsame⟩
  · have hwithdraws : withdraws position s command = true := by
      unfold withdraws
      rw [bne_iff_ne.mpr hsame, Bool.true_or]
    rw [hwithdraws, (h.step command).validated_eq]
    obtain ⟨t, ht, hl⟩ := h
    obtain ⟨u, call, filled, hu, hnext, hscores⟩ := consults_of_changed ht hl hsame
    rw [lifecycleAfter_use ht hu, hnext, Lifecycle.isValidated_consult]
    refine ⟨fun hsuccess => .inl ⟨_, hscores, hsuccess⟩, ?_⟩
    rintro (⟨score, hfinds⟩ | ⟨_, hlasts⟩)
    · rw [(List.cons.inj (hscores.symm.trans hfinds.recorded)).1]
      exact hfinds.success
    · cases hlasts

/-- What a command that finds a success answers hangs on the update of the try counter. -/
theorem Stands.result_of_finds (h : Stands position l s) {score : Int16}
    (hfinds : Finds position s command score) :
    ∃ t, s.templates[position]? = some t ∧ (Session.step command s).result =
      ((TryCounter.restoreTries t.counter).exec s.card.memory).1.map fun _ => .short score := by
  obtain ⟨t, ht, hl⟩ := h
  refine ⟨t, ht, ?_⟩
  obtain ⟨u, call, filled, hu, hnext, hscores⟩ := consults_of_changed ht hl hfinds.changes
  obtain rfl := (List.cons.inj (hscores.symm.trans hfinds.recorded)).1
  rw [(undergoes_use ht hl hu).answer, hnext, Lifecycle.answer_consult hfinds.success]
  show Except.map _ (Except.map _ ((TryCounter.restoreTries t.counter).exec s.card.memory).1) = _
  rcases ((TryCounter.restoreTries t.counter).exec s.card.memory).1 with e | _
  · rfl
  · rfl

/-! ## Runs -/

/-- A template is validated after commands if it was before and that lasts, or if one of them found
a success and the validation lasts from there on. -/
theorem Stands.validated_run (h : Stands position l s) (cs : List (Command (Recorder μ))) :
    validated position (Session.run s cs).2 = true ↔
      validated position s = true ∧ lasts position s cs = true ∨
        ∃ before c after score, cs = before ++ c :: after ∧
          Finds position (Session.run s before).2 c score ∧
          lasts position (Session.step c (Session.run s before).2).state after = true := by
  induction cs generalizing s l with
  | nil =>
    refine ⟨fun hvalidated => .inl ⟨hvalidated, rfl⟩, ?_⟩
    rintro (⟨hvalidated, _⟩ | ⟨before, c, after, score, hnil, _⟩)
    · exact hvalidated
    · exact absurd hnil.symm (List.append_ne_nil_of_right_ne_nil before (List.cons_ne_nil c after))
  | cons c more ih =>
    have hrest := ih (h.step c)
    rw [h.validated_step c] at hrest
    rw [show (Session.run s (c :: more)).2 = (Session.run (Session.step c s).state more).2 from rfl,
      hrest, lasts, Bool.and_eq_true, Bool.not_eq_true']
    refine ⟨?_, ?_⟩
    · rintro (⟨⟨score, hfinds⟩ | ⟨hvalidated, hfirst⟩, hmore⟩ |
        ⟨before, c', after, score, rfl, hfinds, hafter⟩)
      · exact .inr ⟨[], c, more, score, rfl, hfinds, hmore⟩
      · exact .inl ⟨hvalidated, hfirst, hmore⟩
      · exact .inr ⟨c :: before, c', after, score, rfl, hfinds, hafter⟩
    · rintro (⟨hvalidated, hfirst, hmore⟩ | ⟨before, c', after, score, hcs, hfinds, hafter⟩)
      · exact .inl ⟨.inr ⟨hvalidated, hfirst⟩, hmore⟩
      · cases before with
        | nil =>
          cases hcs
          exact .inl ⟨.inl ⟨score, hfinds⟩, hafter⟩
        | cons first before =>
          cases hcs
          exact .inr ⟨before, c', after, score, rfl, hfinds, hafter⟩

/-! ## The law -/

/-- A template is validated exactly while the last candidate that its matcher was asked about was a
success and nothing has withdrawn that since, whatever has been done to the card and to the template
since it was made. It is newly validated only by a command that finds a success, and always by such
a command; but that command answers with the score only if the try counter could be updated, and
with the failure of the update otherwise. -/
theorem validated_law {bioType limit : UInt8} {matcher : Recorder μ} {counter : ArrayRef}
    (hmake : (step (.makeTemplate bioType limit matcher) s₀).result =
      .ok (.template position counter))
    {made : Session (Recorder μ)}
    (hmade : made = (step (.makeTemplate bioType limit matcher) s₀).state)
    {cs : List (Command (Recorder μ))} (hs : s = (run made cs).2) :
    (validated position s = true ↔
      ∃ before c after score, cs = before ++ c :: after ∧
        Finds position (run made before).2 c score ∧
        lasts position (step c (run made before).2).state after = true) ∧
    (∀ command, validated position s = false → validated position (step command s).state = true →
      ∃ score, Finds position s command score) ∧
    ∀ {command score}, Finds position s command score →
      validated position (step command s).state = true ∧
      ∃ t, s.templates[position]? = some t ∧ (step command s).result =
        ((TryCounter.restoreTries t.counter).exec s.card.memory).1.map fun _ => .short score := by
  subst hmade hs
  have hstart := stands_make hmake
  have hstands := hstart.run cs
  refine ⟨?_, fun command hbefore hafter => ?_, fun hfinds => ⟨?_, hstands.result_of_finds hfinds⟩⟩
  · rw [hstart.validated_run cs, hstart.validated_eq]
    exact or_iff_right fun hnew => nomatch hnew.1
  · rcases (hstands.validated_step command).mp hafter with hfinds | ⟨hvalidated, _⟩
    · exact hfinds
    · rw [hbefore] at hvalidated
      cases hvalidated
  · exact (hstands.validated_step _).mpr (.inl ⟨_, hfinds⟩)

/-- A session with one template, whose matcher finds that every candidate succeeds. -/
def indulgent : Session (Recorder ConstantScore) :=
  (step (.makeTemplate 3 3 ⟨⟨20000⟩, []⟩) (.start (.blank {}))).state

/-- A match, and then commands that leave the validation alone. -/
def matchAndUse : List (Command (Recorder ConstantScore)) :=
  [.templateInit 0 [1], .templateFinish 0, .templateInitMatch 0 [1], .reset, .templateMatch 0 [1],
    .templateResetTryLimit 0 0]

theorem validated_law_lasting : validated 0 (run indulgent matchAndUse).2 = true := by
  have hmake : (step (.makeTemplate 3 3 ⟨⟨20000⟩, []⟩)
      (.start (.blank {}) : Session (Recorder ConstantScore))).result =
        .ok (.template 0 ⟨1⟩) := by rfl
  have hfinds : Finds 0 (run indulgent [.templateInit 0 [1], .templateFinish 0]).2
      (.templateInitMatch 0 [1]) 20000 := ⟨by decide +kernel, by decide⟩
  obtain ⟨hvalidated, _⟩ := validated_law (s := (run indulgent matchAndUse).2) hmake rfl rfl
  exact hvalidated.mpr ⟨_, _, _, _, rfl, hfinds, by decide +kernel⟩

/-- Power is lost while a match that succeeds updates the counter. -/
def tornSuccess : List (Command (Recorder ConstantScore)) :=
  [.templateInit 0 [1], .templateFinish 0, .injectPowerLoss 0]

/-- The match fails for want of power, and yet the template is newly validated. -/
theorem validated_despite_failure :
    validated 0 (run indulgent tornSuccess).2 = false ∧
      lostPower (step (.templateInitMatch 0 [1]) (run indulgent tornSuccess).2).result = true ∧
      validated 0 (step (.templateInitMatch 0 [1]) (run indulgent tornSuccess).2).state = true := by
  decide +kernel

end Session

end SmartCard
