-- SUMMARY: Sessions on one card: each template keeps its counter, and all counters are arrays of the card.
import SmartCard.Proofs.Session.References

/-!
# Sessions on one card

A template knows its counter by a reference, which means nothing on another card. Here are the
sessions that stay on one card (`Session.OneCard`). In them the counters of all templates are on the
card, and therefore a new template, whose counter gets a reference that is not in use, shares it
with no other (`Session.OneCard.hosting`).
-/

namespace SmartCard

variable {μ α β : Type}

/-! ## Acts on a bench -/

namespace Bench

/-- Whether an act leaves a template with the counter it has. -/
def KeepsCounter (x : Act (Bench μ) α) : Prop :=
  ∀ b, (x.exec b).2.template.counter = b.template.counter

theorem keepsCounter_bind {x : Act (Bench μ) α} {f : α → Act (Bench μ) β} (hx : KeepsCounter x)
    (hf : ∀ a, KeepsCounter (f a)) : KeepsCounter (x >>= f) := by
  intro b
  have hfirst := hx b
  rw [Act.exec_bind]
  generalize x.exec b = r at hfirst
  rcases r with ⟨e | a, b'⟩
  · exact hfirst
  · exact (hf a b').trans hfirst

theorem keepsCounter_pure (a : α) : KeepsCounter (pure a : Act (Bench μ) α) := fun _ => rfl

theorem keepsCounter_fail (e : Fault) : KeepsCounter (Act.fail e : Act (Bench μ) α) := fun _ => rfl

theorem keepsCounter_read (f : Bench μ → α) : KeepsCounter (Act.read f) := fun _ => rfl

theorem keepsCounter_query (f : Bench μ → Except Fault α) : KeepsCounter (Act.query f) :=
  fun _ => rfl

theorem keepsCounter_onMemory (x : Act Memory α) : KeepsCounter (μ := μ) (onMemory x) :=
  fun _ => rfl

theorem keepsCounter_onTemplate {x : Act (Template μ) α}
    (h : ∀ t, (x.exec t).2.counter = t.counter) : KeepsCounter (onTemplate x) := fun b =>
  h b.template

theorem keepsCounter_update {f : Template μ → Template μ} (h : ∀ t, (f t).counter = t.counter) :
    KeepsCounter (update f) := keepsCounter_onTemplate h

theorem keepsCounter_settle (score : Int16) : KeepsCounter (μ := μ) (settle score) := by
  refine keepsCounter_bind (keepsCounter_read _) fun t => ?_
  have hclose : KeepsCounter (μ := μ) (update fun t => { t with sessionOpen := false }) :=
    keepsCounter_update fun _ => rfl
  rcases MatchOutcome.ofScore score with e | n | n | _
  · exact keepsCounter_bind hclose fun _ => keepsCounter_fail e
  · refine keepsCounter_bind (keepsCounter_update fun _ => rfl) fun _ => ?_
    exact keepsCounter_bind (keepsCounter_onMemory _) fun _ => keepsCounter_pure _
  · refine keepsCounter_bind hclose fun _ => ?_
    exact keepsCounter_bind (keepsCounter_onMemory _) fun _ => keepsCounter_pure _
  · exact keepsCounter_bind (keepsCounter_update fun _ => rfl) fun _ => keepsCounter_pure _

theorem keepsCounter_resetTryLimit (limit : UInt8) :
    KeepsCounter (μ := μ) (resetTryLimit limit) := by
  refine keepsCounter_bind (keepsCounter_read _) fun t => ?_
  exact keepsCounter_bind (keepsCounter_onMemory _) fun _ => keepsCounter_update fun _ => rfl

variable [Matcher μ]

/-- Asking the matcher and settling its score. -/
theorem keepsCounter_consult_settle (candidate : List UInt8) (phase : MatchPhase) :
    KeepsCounter (μ := μ) (do
      let score ← consult candidate phase
      settle score) := by
  refine keepsCounter_bind (keepsCounter_bind (keepsCounter_read _) fun t => ?_) keepsCounter_settle
  exact keepsCounter_bind (keepsCounter_update fun _ => rfl) fun _ => keepsCounter_pure _

theorem keepsCounter_initMatch (candidate : List UInt8) :
    KeepsCounter (μ := μ) (initMatch candidate) := by
  refine keepsCounter_bind (keepsCounter_query _) fun _ => ?_
  refine keepsCounter_bind (keepsCounter_update fun _ => rfl) fun _ => ?_
  refine keepsCounter_bind (keepsCounter_read _) fun t => ?_
  refine keepsCounter_bind (keepsCounter_query _) fun left => ?_
  split
  · exact keepsCounter_bind (keepsCounter_onMemory _) fun _ => keepsCounter_pure _
  · exact keepsCounter_consult_settle candidate .initial

theorem keepsCounter_matchData (candidate : List UInt8) :
    KeepsCounter (μ := μ) (matchData candidate) := by
  refine keepsCounter_bind (keepsCounter_read _) fun t => ?_
  split
  · exact keepsCounter_consult_settle candidate .continuation
  · exact keepsCounter_fail _

end Bench

namespace Session

/-! ## Counters of a session -/

/-- The arrays of the counters of all templates, by position. -/
def counters (s : Session μ) : List ArrayRef := s.templates.map Template.counter

theorem getElem?_counters (s : Session μ) (position : Nat) :
    s.counters[position]? = s.templates[position]?.map Template.counter := List.getElem?_map ..

theorem counter_eq {s : Session μ} {position : Nat} {array : ArrayRef} {t : Template μ}
    (hcounter : s.counters[position]? = some array) (ht : s.templates[position]? = some t) :
    t.counter = array := by
  rw [getElem?_counters, ht, Option.map_some, Option.some.injEq] at hcounter
  exact hcounter

theorem counters_onBench {x : Act (Bench μ) α} (hx : Bench.KeepsCounter x) (position : Nat)
    (f : α → Reply) (s : Session μ) :
    ((f <$> onBench position x).exec s).2.counters = s.counters := by
  rw [Act.exec_map, exec_onBench]
  rcases ht : s.templates[position]? with _ | t
  · rfl
  · refine List.ext_getElem? fun other => ?_
    rw [getElem?_counters, getElem?_counters]
    dsimp only
    by_cases heq : position = other
    · subst heq
      rw [List.getElem?_set_self (List.getElem?_eq_some_iff.mp ht).1, ht, Option.map_some,
        Option.map_some, hx]
    · rw [List.getElem?_set_ne heq]

variable [Matcher μ] {s : Session μ} {command : Command μ}

/-- A command that makes no template leaves each template with its counter. -/
theorem counters_step (hmake : ∀ bioType limit matcher,
    command ≠ .makeTemplate bioType limit matcher) :
    (step command s).state.counters = s.counters := by
  show ((perform command).exec s).2.counters = s.counters
  have hkeeps : ∀ {x : Act (Bench μ) Unit} (position : Nat), Bench.KeepsCounter x →
      (((fun _ => Reply.done) <$> onBench position x).exec s).2.counters = s.counters :=
    fun position hx => counters_onBench hx position _ s
  cases command
  case makeTemplate => exact absurd rfl (hmake _ _ _)
  case templateInit position data =>
    exact hkeeps position (Bench.keepsCounter_update fun _ => rfl)
  case templateUpdate position data =>
    exact hkeeps position
      (Bench.keepsCounter_onTemplate fun t => (Template.keeps_update data t).counter)
  case templateFinish position =>
    exact hkeeps position (Bench.keepsCounter_onTemplate fun t => (Template.keeps_finish t).counter)
  case templateReset position => exact hkeeps position (Bench.keepsCounter_update fun _ => rfl)
  case templateInitMatch position candidate =>
    exact counters_onBench (Bench.keepsCounter_initMatch candidate) position _ s
  case templateMatch position candidate =>
    exact counters_onBench (Bench.keepsCounter_matchData candidate) position _ s
  case templateResetTryLimit position limit =>
    exact hkeeps position (Bench.keepsCounter_resetTryLimit limit)
  case templateTries position => exact counters_onBench (Bench.keepsCounter_query _) position _ s
  case templatePublicData position offset size =>
    exact counters_onBench (Bench.keepsCounter_query _) position _ s
  -- The commands that are left are for the card or for the telemetry.
  all_goals rw [perform]
  all_goals first
    | exact congrArg (·.map Template.counter) (templates_onCard _ _ s)
    | exact congrArg (·.map Template.counter) (templates_askCard _ _ s)
    | rfl

/-- The counter of a new template was no array of the card. -/
theorem Sound.free_of_makeTemplate (h : s.Sound) {bioType limit : UInt8} {matcher : μ}
    {position : Nat} {array : ArrayRef}
    (hmake : (Session.step (.makeTemplate bioType limit matcher) s).result =
      .ok (.template position array)) : s.card.memory.store.descriptor? array = none := by
  by_cases hlimit : limit = 0
  · have hnone : ∀ d, ¬(Command.makeTemplate bioType limit matcher).Makes s.card.config d := by
      rintro d ⟨⟩
      contradiction
    obtain ⟨⟨e, he⟩, _⟩ := h.refused_of_not_makes rfl hnone
    rw [hmake] at he
    cases he
  · have hmaking : (Command.makeTemplate bioType limit matcher).Making s TryCounter.descriptor _ :=
      h.making_template hlimit
    rw [hmake] at hmaking
    generalize (Session.step (.makeTemplate bioType limit matcher) s).state.card = card at hmaking
    generalize hr : (Except.ok (Reply.template position array) : Except Fault Reply) = r at hmaking
    cases hmaking with
    | made _ hanswers hadds =>
      rcases hanswers with hsome | ⟨e, he, _⟩
      · cases hr.trans hsome
        by_contra hused
        exact UInt32.lt_irrefl _ (hadds.beyond array hused)
      · cases hr.trans he
    | exhausted => cases hr
    | full => cases hr

/-- A new template brings a new counter with all of its tries; or there is no new template. -/
theorem Sound.counters_makeTemplate (h : s.Sound) (bioType limit : UInt8) (matcher : μ) :
    ((∃ e, (Session.step (.makeTemplate bioType limit matcher) s).result = .error e) ∧
        (Session.step (.makeTemplate bioType limit matcher) s).state.counters = s.counters) ∨
      ∃ array, (Session.step (.makeTemplate bioType limit matcher) s).result =
          .ok (.template s.counters.length array) ∧
        (Session.step (.makeTemplate bioType limit matcher) s).state.counters =
          s.counters ++ [array] ∧
        TryCounter.Holds s.card.config array limit limit
          (Session.step (.makeTemplate bioType limit matcher) s).state.card.memory := by
  have hexec : (perform (.makeTemplate bioType limit matcher)).exec s = _ :=
    exec_make bioType limit matcher s
  have htemplates := congrArg (·.2.counters) hexec
  have hcard := congrArg (·.2.card.memory) hexec
  have hresult := congrArg Prod.fst hexec
  change (Session.step _ s).state.counters = _ at htemplates
  change (Session.step _ s).state.card.memory = _ at hcard
  change (Session.step _ s).result = _ at hresult
  rcases hm : (TryCounter.make limit).exec s.card.memory with ⟨e | array, m⟩
  · rw [hm] at htemplates hresult
    exact .inl ⟨⟨e, hresult⟩, htemplates⟩
  · rw [hm] at htemplates hcard hresult
    refine .inr ⟨array, ?_, ?_, ?_⟩
    · rw [hresult, counters, List.length_map]
    · rw [htemplates]
      exact List.map_append ..
    · rw [hcard]
      exact TryCounter.holds_make h.memory h.settled hm

/-- Whatever the command, there are the counters of before, and at most one more, which was no array
of the card. -/
theorem Sound.counters_cases (h : s.Sound) (command : Command μ) :
    (Session.step command s).state.counters = s.counters ∨
      ∃ array, s.card.memory.store.descriptor? array = none ∧
        (Session.step command s).state.counters = s.counters ++ [array] ∧
        (Session.step command s).state.card.memory.store.descriptor? array =
          some TryCounter.descriptor := by
  by_cases hmake : ∃ bioType limit matcher, command = .makeTemplate bioType limit matcher
  · obtain ⟨bioType, limit, matcher, rfl⟩ := hmake
    rcases h.counters_makeTemplate bioType limit matcher with
      ⟨_, hsame⟩ | ⟨array, hok, hnew, hholds⟩
    · exact .inl hsame
    · exact .inr ⟨array, h.free_of_makeTemplate hok, hnew, hholds.descriptor⟩
  · exact .inl (counters_step fun bioType limit matcher heq =>
      hmake ⟨bioType, limit, matcher, heq⟩)

/-! ## One card -/

/-- Sessions that stay on one card, be it new or restored from an image: they begin without
templates, and no command puts another card in its place. -/
inductive OneCard : Session μ → Prop where
  | start {s : Session μ} : Reachable s → OneCard (.start s.card)
  | step {s : Session μ} (c : Command μ) :
      OneCard s → ¬c.Replaces s → OneCard (Session.step c s).state

/-- On one card all templates have their counters on the card. -/
structure Hosting (s : Session μ) : Prop where
  sound : s.Sound
  counters : ∀ array ∈ s.counters, s.card.memory.store.descriptor? array ≠ none

theorem Hosting.step (h : s.Hosting) (hplace : ¬command.Replaces s) :
    (Session.step command s).state.Hosting := by
  have hkept : ∀ array ∈ s.counters,
      (Session.step command s).state.card.memory.store.descriptor? array ≠ none := by
    intro array hmem
    obtain ⟨d, hd⟩ := Option.ne_none_iff_exists'.mp (h.counters array hmem)
    rw [h.sound.keeps_step_of_place hplace array d hd]
    exact Option.some_ne_none d
  refine ⟨h.sound.step command, fun array hmem => ?_⟩
  rcases h.sound.counters_cases command with hsame | ⟨new, _, hnew, hd⟩
  · rw [hsame] at hmem
    exact hkept array hmem
  · rw [hnew] at hmem
    rcases List.mem_append.mp hmem with hmem | hmem
    · exact hkept array hmem
    · rw [List.mem_singleton.mp hmem, hd]
      exact Option.some_ne_none _

theorem OneCard.hosting (h : OneCard s) : s.Hosting := by
  induction h with
  | start hreachable =>
    have hsound := hreachable.sound
    exact ⟨⟨hsound.config, hsound.memory, hsound.settled⟩, fun _ hmem => nomatch hmem⟩
  | step c _ hplace ih => exact ih.step hplace

end Session

end SmartCard
