-- SUMMARY: Whether a card prints debug lines and who receives its events changes nothing that a command does.
import SmartCard.Proofs.Oblivious
import SmartCard.Proofs.Session.Delivery

/-!
# Commands and their watchers

Two sessions match (`Session.Matches`) if they hold the same memory and the same templates, and
their cards are configured alike but for debug lines; the receivers of events may be any. From
matching sessions a command gives the same result, reports the same events and leaves matching
sessions behind, and a card that is not asked for debug lines prints none
(`Session.oblivious_perform`).
-/

namespace SmartCard

variable {μ α β : Type}

open Act

/-! ## Cards -/

namespace Card

/-- Cards that differ at most in whether they print debug lines. -/
structure Matches (a b : Card) : Prop where
  config : a.config.withDebug false = b.config.withDebug false
  memory : a.memory = b.memory

/-- A card that prints no debug lines. -/
def IsMute (card : Card) : Prop := card.config.debug = false

variable {a b : Card} {c₁ c₂ : Config} {bytes : List UInt8}

@[refl] theorem Matches.refl (card : Card) : card.Matches card := ⟨rfl, rfl⟩

theorem Matches.trans {card : Card} (h : a.Matches b) (h' : b.Matches card) : a.Matches card :=
  ⟨h.config.trans h'.config, h.memory.trans h'.memory⟩

theorem oblivious_onMemory (x : Act Memory α) : Oblivious Matches IsMute (onMemory x) := by
  constructor
  · rintro a b ⟨hconfig, hmemory⟩
    have hresult : (x a.memory).result = (x b.memory).result := by rw [hmemory]
    have hevents : (x a.memory).events = (x b.memory).events := by rw [hmemory]
    have hstate : (x a.memory).state = (x b.memory).state := by rw [hmemory]
    exact ⟨hresult, hevents, hconfig, hstate⟩
  · intro card h
    have hprinted : (onMemory x card).notes = printed card.config (x card.memory).notes := rfl
    rw [hprinted, printed, h, if_neg Bool.false_ne_true]
    exact ⟨rfl, h⟩

theorem oblivious_makeSensitiveArray (kind : Kind) (memoryType : UInt8) (length : Int16) :
    Oblivious Matches IsMute (makeSensitiveArray kind memoryType length) := by
  constructor
  · intro a b h
    have hsupported :
        a.config.integritySensitiveSupported = b.config.integritySensitiveSupported := by
      have := congrArg Config.integritySensitiveSupported h.config
      exact this
    show (onMemory (Integrity.make a.config.integritySensitiveSupported kind memoryType length)
      a).Agrees Matches (makeSensitiveArray kind memoryType length b)
    rw [hsupported]
    exact (oblivious_onMemory _).agrees h
  · intro card h
    exact (oblivious_onMemory _).mute h

/-! ## Powering up -/

theorem validate_withDebug (c : Config) (debug : Bool) :
    (c.withDebug debug).validate = c.validate :=
  rfl

theorem powerUp_withDebug (c : Config) (debug : Bool) (image : Image) :
    Image.powerUp (c.withDebug debug) image = Image.powerUp c image := rfl

/-- Cards powered up from one image with configurations that differ in their debug lines match. -/
theorem agrees_restore (hc : c₁.withDebug false = c₂.withDebug false) (h : a.Matches b) :
    (restore c₁ bytes a).Agrees Matches (restore c₂ bytes b) := by
  have hvalidate : c₁.validate = c₂.validate := by
    rw [← validate_withDebug c₁ false, hc, validate_withDebug]
  have hpowerUp : Image.powerUp c₁ = Image.powerUp c₂ := by
    funext image
    rw [← powerUp_withDebug c₁ false, hc, powerUp_withDebug]
  unfold restore
  rw [hvalidate, hpowerUp]
  rcases c₂.validate with e | _
  · exact ⟨rfl, rfl, h⟩
  · dsimp only
    rcases Image.ofBytes bytes with e | image
    · exact ⟨rfl, rfl, h⟩
    · dsimp only
      rcases Image.powerUp c₂ image with e | m
      · exact ⟨rfl, rfl, h⟩
      · exact ⟨rfl, rfl, hc, rfl⟩

theorem mute_restore (hc : c₁.debug = false) (h : a.IsMute) :
    (restore c₁ bytes a).notes = [] ∧ (restore c₁ bytes a).state.IsMute := by
  unfold restore
  rcases c₁.validate with e | _
  · exact ⟨rfl, h⟩
  · dsimp only
    rcases Image.ofBytes bytes with e | image
    · exact ⟨rfl, h⟩
    · dsimp only
      rcases Image.powerUp c₁ image with e | m
      · exact ⟨rfl, h⟩
      · refine ⟨?_, hc⟩
        dsimp only
        rw [printed, hc, if_neg Bool.false_ne_true]

end Card

/-! ## Templates -/

namespace Bench

/-- A template on cards that differ at most in their debug lines. -/
structure Matches (a b : Bench μ) : Prop where
  card : a.card.Matches b.card
  template : a.template = b.template

def IsMute (b : Bench μ) : Prop := b.card.IsMute

theorem oblivious_onMemory (x : Act Memory α) :
    Oblivious (Matches (μ := μ)) IsMute (onMemory x) := by
  show Oblivious Matches IsMute ((Card.onMemory x).zoom Bench.card fun b c => { b with card := c })
  exact (Card.oblivious_onMemory x).zoom (fun _ _ h => h.card)
    (fun _ _ _ _ h hcard => ⟨hcard, h.template⟩) (fun _ h => h) fun _ _ _ h => h

theorem oblivious_onTemplate {x : Act (Template μ) α} (hx : ∀ t, (x t).notes = []) :
    Oblivious Matches IsMute (onTemplate x) :=
  (Oblivious.refl hx).zoom (fun _ _ h => h.template) (fun _ _ _ _ h ht => ⟨h.card, ht⟩)
    (fun _ _ => trivial) fun _ _ h _ => h

theorem oblivious_update (f : Template μ → Template μ) : Oblivious Matches IsMute (update f) :=
  oblivious_onTemplate fun _ => rfl

theorem oblivious_enrol (data : List UInt8) :
    Oblivious (Matches (μ := μ)) IsMute (onTemplate (Template.update data)) :=
  oblivious_onTemplate fun t => Act.notes_step _ t

theorem oblivious_finish : Oblivious (Matches (μ := μ)) IsMute (onTemplate Template.finish) := by
  refine oblivious_onTemplate fun t => ?_
  unfold Template.finish
  rw [Act.bind_apply, Act.read]
  rcases t.enrolment with _ | data
  · rfl
  · rcases hempty : data.isEmpty with _ | _ <;> simp only [Act.bind_apply, hempty] <;> rfl

theorem oblivious_template : Oblivious Matches IsMute (Act.read (Bench.template (μ := μ))) :=
  .read fun _ _ h => h.template

theorem oblivious_settle (score : Int16) : Oblivious (Matches (μ := μ)) IsMute (settle score) := by
  refine oblivious_template.bind fun t => ?_
  rcases MatchOutcome.ofScore score with e | n | n | _
  · exact (oblivious_update _).bind fun _ => .fail e
  · refine (oblivious_update _).bind fun _ => ?_
    exact (oblivious_onMemory _).bind fun _ => .pure _
  · refine (oblivious_update _).bind fun _ => ?_
    exact (oblivious_onMemory _).bind fun _ => .pure _
  · exact (oblivious_update _).bind fun _ => .pure _

theorem oblivious_resetTryLimit (limit : UInt8) :
    Oblivious (Matches (μ := μ)) IsMute (resetTryLimit limit) := by
  refine oblivious_template.bind fun t => ?_
  exact (oblivious_onMemory _).bind fun _ => oblivious_update _

theorem triesRemaining_eq {a b : Bench μ} (h : a.Matches b) (t : Template μ) :
    t.triesRemaining a.card = t.triesRemaining b.card :=
  congrArg (fun m => TryCounter.remaining m t.counter) h.card.memory

variable [Matcher μ]

theorem oblivious_consult_settle (candidate : List UInt8) (phase : MatchPhase) :
    Oblivious (Matches (μ := μ)) IsMute (do
      let score ← consult candidate phase
      settle score) := by
  refine Oblivious.bind (oblivious_template.bind fun t => ?_) oblivious_settle
  exact (oblivious_update _).bind fun _ => .pure _

theorem oblivious_initMatch (candidate : List UInt8) :
    Oblivious (Matches (μ := μ)) IsMute (initMatch candidate) := by
  refine Oblivious.bind (.query fun _ _ h => by rw [h.template]) fun _ => ?_
  refine (oblivious_update _).bind fun _ => ?_
  refine oblivious_template.bind fun t => ?_
  refine Oblivious.bind (.query fun _ _ h => triesRemaining_eq h t) fun left => ?_
  refine .ite ?_ (oblivious_consult_settle candidate .initial)
  exact (oblivious_onMemory _).bind fun _ => .pure _

theorem oblivious_matchData (candidate : List UInt8) :
    Oblivious (Matches (μ := μ)) IsMute (matchData candidate) := by
  refine oblivious_template.bind fun t => ?_
  exact .ite (oblivious_consult_settle candidate .continuation) (.fail _)

end Bench

/-! ## Commands -/

namespace Command

/-- Whether a command is about the card or its templates, and not about the telemetry. -/
def isOperation : Command μ → Bool
  | .installObserver | .removeObserver | .totals | .resetTotals => false
  | _ => true

/-- The same command with debug lines turned off in the configuration that it brings. -/
def muted : Command μ → Command μ
  | .restore config bytes => .restore (config.withDebug false) bytes
  | c => c

/-- Whether a command asks for no debug lines. -/
def IsMute : Command μ → Prop
  | .restore config _ => config.debug = false
  | _ => True

theorem muted_of_not_restore {c : Command μ} (hrestore : c.isRestore = false) : c.muted = c := by
  cases c with
  | restore => cases hrestore
  | _ => rfl

end Command

/-! ## Sessions -/

namespace Session

/-- Sessions with the same memory and the same templates, whoever watches them. -/
structure Matches (s₁ s₂ : Session μ) : Prop where
  card : s₁.card.Matches s₂.card
  templates : s₁.templates = s₂.templates

def IsMute (s : Session μ) : Prop := s.card.IsMute

variable {s s₁ s₂ : Session μ}

@[refl] theorem Matches.refl (s : Session μ) : s.Matches s := ⟨.refl _, rfl⟩

theorem Matches.trans (h : s.Matches s₁) (h' : s₁.Matches s₂) : s.Matches s₂ :=
  ⟨h.card.trans h'.card, h.templates.trans h'.templates⟩

theorem oblivious_onCard {x : Act Card α} (hx : Oblivious Card.Matches Card.IsMute x) :
    Oblivious (Matches (μ := μ)) IsMute (onCard x) :=
  hx.zoom (fun _ _ h => h.card) (fun _ _ _ _ h hcard => ⟨hcard, h.templates⟩) (fun _ h => h)
    fun _ _ _ h => h

theorem oblivious_onMemory (x : Act Memory α) :
    Oblivious (Matches (μ := μ)) IsMute (onCard (Card.onMemory x)) :=
  oblivious_onCard (Card.oblivious_onMemory x)

theorem oblivious_askMemory (f : Memory → Except Fault α) :
    Oblivious (Matches (μ := μ)) IsMute (askCard fun card => f card.memory) :=
  .query fun _ _ h => congrArg f h.card.memory

theorem oblivious_onBench {x : Act (Bench μ) α} (hx : Oblivious Bench.Matches Bench.IsMute x)
    (position : Nat) : Oblivious Matches IsMute (onBench position x) := by
  constructor
  · intro s₁ s₂ h
    unfold onBench
    rw [h.templates]
    rcases s₂.templates[position]? with _ | t
    · exact ⟨rfl, rfl, h⟩
    · have hends := hx.agrees (show Bench.Matches ⟨s₁.card, t⟩ ⟨s₂.card, t⟩ from ⟨h.card, rfl⟩)
      have htemplates := congrArg (s₂.templates.set position) hends.state.template
      exact ⟨hends.result, hends.events, hends.state.card, htemplates⟩
  · intro s h
    unfold onBench
    rcases s.templates[position]? with _ | t
    · exact ⟨rfl, h⟩
    · exact hx.mute (s := ⟨s.card, t⟩) h

theorem oblivious_makeTemplate (bioType limit : UInt8) (matcher : μ) :
    Oblivious Matches IsMute (makeTemplate bioType limit matcher) := by
  have hmake : Oblivious Card.Matches Card.IsMute (Template.make bioType limit matcher) :=
    (Card.oblivious_onMemory _).bind fun _ => .pure _
  refine (oblivious_onCard hmake).bind fun t => ?_
  refine Oblivious.bind (.read fun _ _ h => by rw [h.templates]) fun position => ?_
  refine Oblivious.bind ?_ fun _ => ?_
  · exact .modify (fun _ _ h => ⟨h.card, by rw [h.templates]⟩) fun _ h => h
  · exact .pure _

variable [Matcher μ] {c : Command μ}

theorem oblivious_perform (hoperation : c.isOperation = true) (hrestore : c.isRestore = false) :
    Oblivious Matches IsMute (perform c) := by
  cases c with
  | begin | commit | abort | makePersistent | makeTransient | setElement | loadElements | copy
  | fill | compare | find | setShort | setInt | assertIntegrity | clearArray | reset | deselect
  | injectPowerLoss | injectBitFlip => exact (oblivious_onMemory _).map _
  | makeSensitive => exact (oblivious_onCard (Card.oblivious_makeSensitiveArray ..)).map _
  | capacities => exact .read fun _ _ h => congrArg (fun m : Memory => Reply.capacities
      m.transaction.depth (clampShort m.transaction.unusedCapacity)
      (clampShort m.transaction.maxCapacity) m.transaction.unusedCapacity) h.card.memory
  | image => exact .read fun _ _ h =>
      congrArg (fun m => Reply.bytes (Image.capture m).encode) h.card.memory
  | descriptor array => exact (oblivious_askMemory (·.descriptor array)).map _
  | isTransient array => exact (oblivious_askMemory (·.clearingEvent array)).map _
  | availableMemory type =>
    exact (oblivious_askMemory fun m => (m.available type).map clampShort).map _
  | availableMemoryExtended type => exact (oblivious_askMemory (·.available type)).map _
  | getElement array index => exact (oblivious_askMemory (·.element array index)).map _
  | elements array => exact (oblivious_askMemory (·.elements array)).map _
  | rawBytes array => exact (oblivious_askMemory (·.payload array)).map _
  | getShort array offset =>
    exact (oblivious_askMemory fun m => Packing.getShort m.store array offset).map _
  | getInt array offset =>
    exact (oblivious_askMemory fun m => Packing.getInt m.store array offset).map _
  | isSensitive array =>
    exact (oblivious_askMemory fun m => Integrity.isSensitive m.store array).map _
  | makeTemplate => exact oblivious_makeTemplate ..
  | templateInit | templateReset => exact (oblivious_onBench (Bench.oblivious_update _) _).map _
  | templateUpdate => exact (oblivious_onBench (Bench.oblivious_enrol _) _).map _
  | templateFinish => exact (oblivious_onBench Bench.oblivious_finish _).map _
  | templateInitMatch => exact (oblivious_onBench (Bench.oblivious_initMatch _) _).map _
  | templateMatch => exact (oblivious_onBench (Bench.oblivious_matchData _) _).map _
  | templateResetTryLimit => exact (oblivious_onBench (Bench.oblivious_resetTryLimit _) _).map _
  | templateTries =>
    refine (oblivious_onBench (.query fun _ _ h => ?_) _).map _
    rw [h.template]
    exact Bench.triesRemaining_eq h _
  | templatePublicData =>
    exact (oblivious_onBench (.query fun _ _ h => by rw [h.template]) _).map _
  | restore => cases hrestore
  | installObserver | removeObserver | totals | resetTotals => cases hoperation

/-- Matching sessions answer a command alike, whatever it says about debug lines. -/
theorem agrees_perform (hoperation : c.isOperation = true) (h : s₁.Matches s₂) :
    (perform c s₁).Agrees Matches (perform c.muted s₂) := by
  rcases hrestore : c.isRestore with _ | _
  · rw [Command.muted_of_not_restore hrestore]
    exact (oblivious_perform hoperation hrestore).agrees h
  · cases c with
    | restore config bytes =>
      have hends : (Card.restore config bytes s₁.card).Agrees Card.Matches
          (Card.restore (config.withDebug false) bytes s₂.card) := Card.agrees_restore rfl h.card
      have honCard : (onCard (Card.restore config bytes) s₁).Agrees Matches
          (onCard (Card.restore (config.withDebug false) bytes) s₂) :=
        ⟨hends.result, hends.events, hends.state, h.templates⟩
      exact Act.agrees_bind honCard fun _ {_ _} h => ⟨rfl, rfl, h⟩
    | _ => cases hrestore

theorem agrees_step (hoperation : c.isOperation = true) (h : s₁.Matches s₂) :
    (step c s₁).Agrees Matches (step c.muted s₂) := by
  have hends := agrees_perform hoperation h
  exact ⟨hends.result, hends.events, hends.state.card, hends.state.templates⟩

/-- A command about the telemetry leaves the card and its templates alone. -/
theorem matches_step (htelemetry : c.isOperation = false) (s : Session μ) :
    (step c s).state.Matches s := by
  cases c with
  | installObserver | removeObserver | totals | resetTotals => exact ⟨.refl _, rfl⟩
  | _ => cases htelemetry

theorem mute_perform (hc : c.IsMute) (h : s.IsMute) :
    (perform c s).notes = [] ∧ (perform c s).state.IsMute := by
  rcases hoperation : c.isOperation with _ | _
  · cases c with
    | installObserver | removeObserver | totals | resetTotals => exact ⟨rfl, h⟩
    | _ => cases hoperation
  · rcases hrestore : c.isRestore with _ | _
    · exact (oblivious_perform hoperation hrestore).mute h
    · cases c with
      | restore config bytes =>
        have hends : (onCard (Card.restore config bytes) s).notes = [] ∧
            (onCard (Card.restore config bytes) s).state.IsMute := Card.mute_restore hc h
        exact Act.mute_bind hends fun _ {_} h => ⟨rfl, h⟩
      | _ => cases hrestore

theorem mute_step (hc : c.IsMute) (h : s.IsMute) :
    (step c s).notes = [] ∧ (step c s).state.IsMute := mute_perform hc h

end Session

end SmartCard
