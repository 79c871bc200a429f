-- SUMMARY: A blocked template asks its matcher nothing, unless a match session outlasts the tries it was opened with.
import SmartCard.Proofs.Session.SpentTries
import SmartCard.Proofs.Session.Tries
import SmartCard.Proofs.Session.Validation

/-!
# Blocking

A template without tries is blocked, and no match is opened on it. A session that is open goes on,
however, for the tries are looked at only when it is opened. The session is kept by the template and
the tries by the card. On one card they agree: a session is open only while tries are left, since
the candidate that spends the last one closes the session. The image of another time can part them,
and it is just then that a blocked template asks its matcher.
-/

namespace SmartCard

variable {μ : Type}

namespace Session

variable [Matcher μ]

/-! ## Reachable templates -/

/-- There are as many templates as before, or one more that is not enrolled. -/
theorem templates_cases (s : Session μ) (command : Command μ) :
    (step command s).state.templates.length = s.templates.length ∨
      ∃ bioType counter matcher, (step command s).state.templates =
        s.templates ++ [Template.blank bioType counter matcher] := by
  by_cases hmake : ∃ bioType limit matcher, command = .makeTemplate bioType limit matcher
  · obtain ⟨bioType, limit, matcher, rfl⟩ := hmake
    have htemplates : (step (.makeTemplate bioType limit matcher) s).state.templates = _ :=
      congrArg (·.2.templates) (exec_make bioType limit matcher s)
    rw [htemplates]
    rcases (TryCounter.make limit).exec s.card.memory with ⟨_ | counter, m⟩
    · exact .inl rfl
    · exact .inr ⟨bioType, counter, matcher, rfl⟩
  · have hcounters := counters_step (s := s) fun bioType limit matcher heq =>
      hmake ⟨bioType, limit, matcher, heq⟩
    have hlength := congrArg List.length hcounters
    unfold counters at hlength
    rw [List.length_map, List.length_map] at hlength
    exact .inl hlength

/-- Every template stands somewhere in its lifecycle. -/
theorem Reachable.stands {s : Session μ} {t : Template μ} {position : Nat} (h : Reachable s)
    (ht : s.templates[position]? = some t) :
    ∃ l, t.Encodes l := by
  induction h generalizing t with
  | start hnew => cases ht
  | @step s c _ ih =>
    rcases Nat.lt_or_ge position s.templates.length with hold | hnew
    · obtain ⟨l, hl⟩ := ih (List.getElem?_eq_getElem hold)
      obtain ⟨t', ht', hl'⟩ := Stands.step ⟨_, List.getElem?_eq_getElem hold, hl⟩ c
      rw [ht] at ht'
      cases ht'
      exact ⟨_, hl'⟩
    · rcases templates_cases s c with hlength | ⟨bioType, counter, matcher, htemplates⟩
      · have hposition := (List.getElem?_eq_some_iff.mp ht).1
        omega
      · rw [htemplates] at ht
        rcases eq_of_getElem?_concat ht with hold | ⟨_, rfl⟩
        · exact absurd (List.getElem?_eq_some_iff.mp hold).1 (Nat.not_lt.mpr hnew)
        · exact ⟨.unenrolled, Template.encodes_blank bioType counter matcher⟩

/-! ## Candidates turned away -/

variable {s : Session (Recorder μ)} {t : Template (Recorder μ)} {position : Nat}
  {command : Command (Recorder μ)} {counter : ArrayRef} {limit left : UInt8}
  {bytes : List UInt8} {l : Lifecycle}

/-- A command turns a candidate away: the matcher of the template at a position is not asked, the
template is not newly validated, and the card stays as it is. -/
structure TurnsAway (position : Nat) (s : Session (Recorder μ)) (command : Command (Recorder μ)) :
    Prop where
  unasked : scores position (step command s).state = scores position s
  unvalidated : validated position (step command s).state = true → validated position s = true
  card : (step command s).state.card = s.card

/-- A match that is to be opened on a blocked template is turned away. -/
theorem turnsAway_initMatch (hsound : s.Sound) (ht : s.templates[position]? = some t)
    (h : t.Encodes l) (hblocked : t.triesRemaining s.card = .ok 0) (candidate : List UInt8) :
    TurnsAway position s (.templateInitMatch position candidate) := by
  have hu : (.templateInitMatch position candidate : Command (Recorder μ)).use? =
    some (position, .initMatch candidate) := rfl
  have hscores := scores_use ht h hu
  rw [Lifecycle.asked_initMatch_of_blocked hblocked] at hscores
  refine ⟨hscores, fun hvalidated => ?_, ?_⟩
  · rw [Stands.validated_of_same ⟨t, ht, h⟩ hscores, Bool.and_eq_true] at hvalidated
    exact hvalidated.1
  · rw [hsound.card_step (c := .templateInitMatch position candidate) rfl]
    unfold Command.request Command.onTemplate
    dsimp only
    rw [ht]
    dsimp only
    rcases t.requireInitialized with e | _
    · rfl
    · rw [hblocked]
      rfl

/-- A match goes on exactly if a session is open, be the template blocked or not. -/
theorem turnsAway_match_iff (ht : s.templates[position]? = some t) (h : t.Encodes l)
    (candidate : List UInt8) :
    TurnsAway position s (.templateMatch position candidate) ↔ t.sessionOpen = false := by
  have hu : (.templateMatch position candidate : Command (Recorder μ)).use? =
    some (position, .matchData candidate) := rfl
  refine ⟨fun haway => ?_, fun hclosed => ?_⟩
  · rw [h.sessionOpen, beq_eq_false_iff_ne]
    intro hsession
    have hscores := scores_use ht h hu
    rcases l with _ | _ | ⟨reference, filled, _ | _ | _⟩
    case enrolled.session =>
      rw [Lifecycle.next, Lifecycle.asked_consult] at hscores
      exact absurd (hscores.symm.trans haway.unasked) (List.cons_ne_self _ _)
    all_goals cases hsession
  · have hrefuses : l.Refuses (.matchData candidate) .noOpenSession := by
      refine .matchData ?_
      rwa [h.sessionOpen, beq_eq_false_iff_ne] at hclosed
    have hrefused := refused_use ht h hu hrefuses
    refine ⟨?_, ?_, hrefused.card⟩
    · unfold scores
      rw [hrefused.templates]
    · unfold validated
      rw [hrefused.templates]
      exact id

/-! ## Sessions on one card -/

/-- A card that comes up from its own image has the tries that it had. -/
theorem Guarded.restored (h : Guarded position counter limit left s) (hsound : s.Sound)
    (hrestore : command.isRestore = true) (hplace : ¬command.Replaces s) :
    Guarded position counter limit left (step command s).state := by
  obtain ⟨t, ht, hcounter, hsession, hholds⟩ := h
  have hposition : command.position? ≠ some position := by
    intro hsome
    rw [Command.isRestore_of_position? hsome] at hrestore
    cases hrestore
  have ht' := getElem?_templates_step (List.getElem?_eq_some_iff.mp ht).1 hposition
  refine ⟨t, ht'.trans ht, hcounter, hsession, ?_⟩
  have hsound' := hsound.step command
  rcases hsound.restored_of_place hrestore hplace with hsame | ⟨htable, hentries⟩
  · rw [hsame]
    exact hholds
  · have hrecovered := hholds.recovered
    have hbyte : ∀ i, (step command s).state.card.memory.store.byte? counter i =
        s.card.memory.recovered.store.byte? counter i := by
      intro i
      unfold Store.byte?
      rw [htable]
    exact
      { sound := hsound'.memory
        settled := hsound'.settled
        descriptor := hsound.keeps_step_of_place hplace counter _ hholds.descriptor
        unlogged := Memory.unlogged_of_nil hentries
        limit := (hbyte 0).trans hrecovered.limit
        left := (hbyte 1).trans hrecovered.left }

/-- A command that leaves the counter to the templates leaves no session open without tries. -/
theorem Owned.guarded_step (h : s.Owned position counter bytes)
    (hguarded : Guarded position counter limit left s) (hleaves : command.LeavesCounter counter s) :
    ∃ limit' left', Guarded position counter limit' left' (step command s).state := by
  by_cases hposition : command.position? = some position
  · obtain ⟨_, limit', left', _, hguarded', _⟩ := hguarded.takesTurn_own hposition
    exact ⟨limit', left', hguarded'⟩
  · rcases hrestore : command.isRestore with _ | _
    · have hdestination := hleaves.destination hposition h.alone
      obtain ⟨_, limit', left', _, hguarded', _⟩ :=
        hguarded.takesTurn_other h.sound hrestore hposition hdestination
      exact ⟨limit', left', hguarded'⟩
    · exact ⟨limit, left, hguarded.restored h.sound hrestore hleaves.1⟩

/-- And so do commands one after the other. -/
theorem Owned.guarded_run (h : s.Owned position counter bytes)
    (hguarded : Guarded position counter limit left s) {cs : List (Command (Recorder μ))}
    (hcs : LeavesCounter counter s cs) :
    ∃ limit' left', Guarded position counter limit' left' (Session.run s cs).2 := by
  induction cs generalizing s bytes limit left with
  | nil => exact ⟨limit, left, hguarded⟩
  | cons c more ih =>
    obtain ⟨_, _, hguarded'⟩ := h.guarded_step hguarded hcs.1
    exact ih (h.passage hcs.1).owned hguarded' hcs.2

omit [Matcher μ] in
/-- While a session is open, there are tries left. -/
theorem Guarded.closed_of_blocked (h : Guarded position counter limit left s)
    (ht : s.templates[position]? = some t) (hblocked : t.triesRemaining s.card = .ok 0) :
    t.sessionOpen = false := by
  obtain ⟨t', ht', hcounter, hsession, hholds⟩ := h
  rw [ht] at ht'
  cases ht'
  rw [Bool.eq_false_iff]
  intro hopen
  unfold Template.triesRemaining at hblocked
  rw [show t.counter = counter from hcounter, hholds.remaining_eq] at hblocked
  exact hsession hopen (Except.ok.inj hblocked)

/-! ## The law -/

/-- A blocked template opens no match. In any session, to whatever cards and templates it has led,
opening a match on a template without tries turns the candidate away. Continuing one turns it away
too, exactly if no session is open. If the template was made and used on one card, of which the
counter was left to the templates, there is no session open. -/
theorem blocked_law (hreachable : Reachable s) (ht : s.templates[position]? = some t)
    (hblocked : t.triesRemaining s.card = .ok 0) :
    (∀ candidate, TurnsAway position s (.templateInitMatch position candidate)) ∧
    (∀ candidate, TurnsAway position s (.templateMatch position candidate) ↔
      t.sessionOpen = false) ∧
    ∀ {s₀ made : Session (Recorder μ)} {bioType limit matcher counter cs}, OneCard s₀ →
      (step (.makeTemplate bioType limit matcher) s₀).result = .ok (.template position counter) →
      made = (step (.makeTemplate bioType limit matcher) s₀).state →
      LeavesCounter counter made cs → s = (run made cs).2 → t.sessionOpen = false := by
  obtain ⟨l, hl⟩ := hreachable.stands ht
  refine ⟨turnsAway_initMatch hreachable.sound ht hl hblocked, turnsAway_match_iff ht hl, ?_⟩
  rintro s₀ made bioType limit matcher counter cs hcard hmake rfl hcs rfl
  have howned := hcard.owned_makeTemplate hmake
  obtain ⟨_, _, hguarded⟩ := howned.guarded_run (hcard.hosting.sound.guarded_make hmake) hcs
  exact hguarded.closed_of_blocked ht hblocked

/-- Enrolment, and the failure that spends the try. -/
def spentTry : List (Command (Recorder ConstantScore)) :=
  [.templateInit 0 [1], .templateFinish 0, .templateInitMatch 0 [2]]

theorem blocked_law_spentTry :
    TurnsAway 0 (run oneTry spentTry).2 (.templateInitMatch 0 [1]) ∧
      TurnsAway 0 (run oneTry spentTry).2 (.templateMatch 0 [1]) := by
  have hnew : Reachable (.start (.blank {}) : Session (Recorder ConstantScore)) :=
    .start (c := {}) rfl
  have hmake : (step (.makeTemplate 3 1 ⟨⟨0⟩, []⟩)
      (.start (.blank {}) : Session (Recorder ConstantScore))).result =
        .ok (.template 0 ⟨1⟩) := by rfl
  have hcs : LeavesCounter ⟨1⟩ oneTry spentTry :=
    ⟨⟨id, nofun⟩, ⟨id, nofun⟩, ⟨id, nofun⟩, trivial⟩
  have hreachable : Reachable (run oneTry spentTry).2 := (hnew.step _).run _
  have hspent : TryCounter.remaining (run oneTry spentTry).2.card.memory ⟨1⟩ = .ok 0 := by rfl
  have ht : (run oneTry spentTry).2.templates[0]? = some _ := rfl
  obtain ⟨hopening, hgoingOn, hclosed⟩ := blocked_law hreachable ht hspent
  exact ⟨hopening [1], (hgoingOn [1]).mpr (hclosed (.start hnew) hmake rfl hcs rfl)⟩

/-- A matching engine with a list of scores to give. -/
structure ListedScores where
  scores : List Int16

instance : Matcher ListedScores where
  score m _ _ _ := (m.scores.headD 0, ⟨m.scores.tail⟩)

/-- A template whose single try was spent. Its matcher will ask for more data, and then find that a
candidate succeeds. -/
def spentTemplate : Session (Recorder ListedScores) :=
  (run (step (.makeTemplate 3 1 ⟨⟨[0, -1, 20000]⟩, []⟩) (.start (.blank {}))).state
    [.templateInit 0 [1], .templateFinish 0, .templateInitMatch 0 [2]]).2

/-- The template gets another try and opens a session, and then the card is restored from its image
of before. -/
def parted : Session (Recorder ListedScores) :=
  (run spentTemplate [.templateResetTryLimit 0 1, .templateInitMatch 0 [1],
    .restore {} spentTemplate.card.image]).2

/-- The template is blocked. It asks its matcher all the same, and is validated. -/
theorem blocked_template_asks :
    Reachable parted ∧
      (parted.templates[0]?.map fun t => (t.triesRemaining parted.card).toOption) = some (some 0) ∧
      scores 0 parted = [-1, 0] ∧ validated 0 parted = false ∧
      scores 0 (step (.templateMatch 0 [1]) parted).state = [20000, -1, 0] ∧
      validated 0 (step (.templateMatch 0 [1]) parted).state = true := by
  have hnew : Reachable (.start (.blank {}) : Session (Recorder ListedScores)) :=
    .start (c := {}) rfl
  exact ⟨((hnew.step _).run _).run _, by decide +kernel⟩

end Session

end SmartCard
