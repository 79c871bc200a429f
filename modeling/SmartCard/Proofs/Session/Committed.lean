-- SUMMARY: A committed transaction: its commands give what they give without it, and leave the same card.
import SmartCard.Proofs.Memory.Alongside
import SmartCard.Proofs.Session.Rollback
import SmartCard.Proofs.Session.Runs

/-!
# Committed transactions

Commands in a transaction that is committed in the end give the results that they give without it,
and leave the same card, unless the commit buffer overflows. A session with an open transaction is
followed side by side with one that differs in nothing but the transaction and what was reported.
-/

namespace SmartCard

variable {μ α : Type} {c : Config}

/-! ## Cards -/

/-- A card in an explicit transaction, and the same card without one. -/
structure Card.Alongside (c : Config) (a b : Card) : Prop where
  inside : a.config = c
  outside : b.config = c
  memory : Memory.Alongside c a.memory b.memory

namespace Card

theorem alike_onMemory {x : Act Memory α} (hx : x.Alike (Memory.Alongside c)) :
    (onMemory x).Alike (Alongside c) := by
  have hzoom : (x.zoom Card.memory fun card m => { card with memory := m }).Alike (Alongside c) :=
    .zoom hx (fun _ _ h => h.memory) fun _ _ _ _ h hm => ⟨h.inside, h.outside, hm⟩
  exact hzoom

theorem alike_makeSensitiveArray (kind : Kind) (memoryType : UInt8) (length : Int16) :
    (makeSensitiveArray kind memoryType length).Alike (Alongside c) := by
  intro a b h
  have hmake : ∀ card : Card, card.config = c →
      (makeSensitiveArray kind memoryType length).exec card = (onMemory
        (Integrity.make c.integritySensitiveSupported kind memoryType length)).exec card := by
    rintro card rfl
    rfl
  rw [hmake a h.inside, hmake b h.outside]
  exact alike_onMemory (Integrity.alike_make _ _ _ _) a b h

theorem Alongside.triesRemaining_eq {a b : Card} (h : Alongside c a b) (t : Template μ) :
    t.triesRemaining a = t.triesRemaining b := by
  unfold Template.triesRemaining TryCounter.remaining TryCounter.byteAt
  rw [h.memory.store_eq]

end Card

/-! ## Templates -/

/-- One template with either card. -/
structure Bench.Alongside (c : Config) (a b : Bench μ) : Prop where
  card : Card.Alongside c a.card b.card
  template : b.template = a.template

namespace Bench

theorem alike_onMemory {x : Act Memory α} (hx : x.Alike (Memory.Alongside c)) :
    (onMemory x : Act (Bench μ) α).Alike (Alongside c) :=
  .zoom (Card.alike_onMemory hx) (fun _ _ h => h.card) fun _ _ _ _ h hcard => ⟨hcard, h.template⟩

theorem alike_onTemplate (x : Act (Template μ) α) : (onTemplate x).Alike (Alongside c) :=
  .zoom (.refl x) (fun _ _ h => h.template.symm) fun _ _ _ _ h heq => ⟨h.card, heq.symm⟩

theorem alike_template : (Act.read (Bench.template (μ := μ))).Alike (Alongside c) :=
  .read fun _ _ h => h.template.symm

theorem alike_settle (score : Int16) :
    (settle score : Act (Bench μ) Int16).Alike (Alongside c) := by
  refine .bind alike_template fun t => ?_
  rcases MatchOutcome.ofScore score with e | _ | _ | _
  · exact .bind (alike_onTemplate _) fun _ => .fail e
  · refine .bind (alike_onTemplate _) fun _ => .bind (alike_onMemory ?_) fun _ => .pure _
    exact .bind (TryCounter.alike_restoreTries _) fun _ => .note _
  · refine .bind (alike_onTemplate _) fun _ => .bind (alike_onMemory ?_) fun _ => .pure _
    exact .bind (TryCounter.alike_spend _) fun _ => .note _
  · exact .bind (alike_onTemplate _) fun _ => .pure _

variable [Matcher μ]

theorem alike_consult_settle (candidate : List UInt8) (phase : MatchPhase) :
    (do
      let score ← consult candidate phase
      settle score : Act (Bench μ) Int16).Alike (Alongside c) := by
  refine .bind ?_ fun score => alike_settle score
  exact .bind alike_template fun _ => .bind (alike_onTemplate _) fun _ => .pure _

theorem alike_initMatch (candidate : List UInt8) :
    (initMatch candidate : Act (Bench μ) Int16).Alike (Alongside c) := by
  refine .bind (.query fun a b h => by rw [h.template]) fun _ =>
    .bind (alike_onTemplate _) fun _ => .bind alike_template fun _ =>
      .bind (.query fun _ _ h => h.card.triesRemaining_eq _) fun left => ?_
  refine .ite ?_ (alike_consult_settle candidate .initial)
  exact .bind (alike_onMemory (.note _)) fun _ => .pure _

theorem alike_matchData (candidate : List UInt8) :
    (matchData candidate : Act (Bench μ) Int16).Alike (Alongside c) :=
  .bind alike_template fun _ => .ite (alike_consult_settle candidate .continuation) (.fail _)

omit [Matcher μ] in
theorem alike_resetTryLimit (limit : UInt8) :
    (resetTryLimit limit : Act (Bench μ) Unit).Alike (Alongside c) :=
  .bind alike_template fun _ => .bind (alike_onMemory (TryCounter.alike_refill _ _)) fun _ =>
    alike_onTemplate _

end Bench

/-! ## Commands -/

namespace Command

/-- Whether a command neither opens nor closes a transaction, nor arms a tear, nor looks at either,
nor has to do with telemetry. -/
def isPlain : Command μ → Bool
  | .begin | .commit | .abort | .capacities | .reset | .injectPowerLoss _ | .image | .restore .. =>
    false
  | .installObserver | .removeObserver | .totals | .resetTotals => false
  | _ => true

end Command

namespace Session

/-- A session in an explicit transaction, and the same session without one. -/
structure Alongside (c : Config) (s₁ s₂ : Session μ) : Prop where
  card : Card.Alongside c s₁.card s₂.card
  templates : s₂.templates = s₁.templates

theorem alike_onCard {x : Act Card α} (hx : x.Alike (Card.Alongside c)) :
    (onCard x : Act (Session μ) α).Alike (Alongside c) :=
  .zoom hx (fun _ _ h => h.card) fun _ _ _ _ h hcard => ⟨hcard, h.templates⟩

theorem alike_onMemory {x : Act Memory α} (hx : x.Alike (Memory.Alongside c)) :
    (onCard (Card.onMemory x) : Act (Session μ) α).Alike (Alongside c) :=
  alike_onCard (Card.alike_onMemory hx)

/-- A query that never looks at the transaction. -/
theorem alike_askCard {f : Card → Except Fault α}
    (hf : ∀ card t, f card = f ⟨card.config, card.memory.store, t⟩) :
    (askCard f : Act (Session μ) α).Alike (Alongside c) := by
  refine .query fun s₁ s₂ h => ?_
  rw [hf s₁.card (.idle c), hf s₂.card (.idle c), h.card.inside, h.card.outside,
    h.card.memory.store_eq]

theorem alike_onBench (position : Nat) {x : Act (Bench μ) α} (hx : x.Alike (Bench.Alongside c)) :
    (onBench position x).Alike (Alongside c) := by
  intro s₁ s₂ h
  rw [exec_onBench, exec_onBench, h.templates]
  rcases s₁.templates[position]? with _ | t
  · exact .same h
  · have hends := hx ⟨s₁.card, t⟩ ⟨s₂.card, t⟩ ⟨h.card, rfl⟩
    dsimp only
    generalize x.exec ⟨s₁.card, t⟩ = r₁ at hends ⊢
    generalize x.exec ⟨s₂.card, t⟩ = r₂ at hends ⊢
    cases hends with
    | full hfull => exact .full hfull
    | same hbench => exact .same ⟨hbench.card, by rw [hbench.template]⟩

theorem alike_makeTemplate (bioType limit : UInt8) (matcher : μ) :
    (makeTemplate bioType limit matcher).Alike (Alongside c) := by
  refine .bind (alike_onCard ?_) fun t => ?_
  · exact .bind (Card.alike_onMemory (TryCounter.alike_make limit)) fun _ => .pure _
  · refine .bind (.read fun _ _ h => by rw [h.templates]) fun _ => .bind ?_ fun _ => .pure _
    exact .modify fun _ _ h => ⟨h.card, by rw [h.templates]⟩

variable [Matcher μ] {s s₁ s₂ : Session μ} {command : Command μ}

theorem alike_perform (h : command.isPlain = true) : (perform command).Alike (Alongside c) := by
  cases command
  case makePersistent => exact .map _ (alike_onMemory (Memory.alike_makePersistent _ _))
  case makeTransient => exact .map _ (alike_onMemory (Memory.alike_makeTransient _ _ _))
  case makeSensitive => exact .map _ (alike_onCard (Card.alike_makeSensitiveArray _ _ _))
  case setElement => exact .map _ (alike_onMemory (Memory.alike_setElement _ _ _))
  case loadElements => exact .map _ (alike_onMemory (Memory.alike_loadElements _ _))
  case copy => exact .map _ (alike_onMemory (Range.alike_copy _ _ _ _ _ _))
  case fill => exact .map _ (alike_onMemory (Range.alike_fill _ _ _ _ _ _))
  case compare => exact .map _ (alike_onMemory (Range.alike_compare _ _ _ _ _))
  case find => exact .map _ (alike_onMemory (Range.alike_find _ _ _ _))
  case setShort => exact .map _ (alike_onMemory (Packing.alike_writeWord _ _ _ _))
  case setInt => exact .map _ (alike_onMemory (Packing.alike_writeWord _ _ _ _))
  case assertIntegrity => exact .map _ (alike_onMemory (Integrity.alike_check _))
  case clearArray => exact .map _ (alike_onMemory (Integrity.alike_clear _))
  case deselect => exact .map _ (alike_onMemory Memory.alike_deselect)
  case injectBitFlip => exact .map _ (alike_onMemory (Memory.alike_flip _ _ _))
  case makeTemplate => exact alike_makeTemplate _ _ _
  case templateInit => exact .map _ (alike_onBench _ (Bench.alike_onTemplate _))
  case templateUpdate => exact .map _ (alike_onBench _ (Bench.alike_onTemplate _))
  case templateFinish => exact .map _ (alike_onBench _ (Bench.alike_onTemplate _))
  case templateReset => exact .map _ (alike_onBench _ (Bench.alike_onTemplate _))
  case templateInitMatch => exact .map _ (alike_onBench _ (Bench.alike_initMatch _))
  case templateMatch => exact .map _ (alike_onBench _ (Bench.alike_matchData _))
  case templateResetTryLimit => exact .map _ (alike_onBench _ (Bench.alike_resetTryLimit _))
  case templateTries =>
    exact .map _ (alike_onBench _ (.query fun a b h => by
      rw [h.template, h.card.triesRemaining_eq]))
  case templatePublicData =>
    exact .map _ (alike_onBench _ (.query fun a b h => by rw [h.template]))
  -- What is left are questions to the card, and the commands that are not plain.
  all_goals first
    | exact .map _ (alike_askCard fun _ _ => rfl)
    | cases h

theorem alike_step (h : command.isPlain = true) : (step command).Alike (Alongside c) := by
  intro s₁ s₂ halong
  have hends := alike_perform h s₁ s₂ halong
  have hexec : ∀ s : Session μ, (step command).exec s = (((perform command).exec s).1,
      { ((perform command).exec s).2 with telemetry := (step command s).state.telemetry }) :=
    fun _ => rfl
  rw [hexec, hexec]
  generalize (perform command).exec s₁ = r₁ at hends ⊢
  generalize (perform command).exec s₂ = r₂ at hends ⊢
  cases hends with
  | full hfull => exact .full hfull
  | same h' => exact .same ⟨h'.card, h'.templates⟩

/-! ## Runs -/

/-- Commands run with and without a transaction give the same results as long as there is room. -/
theorem Alongside.run (h : Alongside c s₁ s₂) {cs : List (Command μ)}
    (hplain : ∀ command ∈ cs, command.isPlain = true)
    (hroom : ∀ e, .error e ∈ (Session.run s₁ cs).1 → e.isBufferFull = false) :
    (Session.run s₁ cs).1 = (Session.run s₂ cs).1 ∧
      Alongside c (Session.run s₁ cs).2 (Session.run s₂ cs).2 := by
  induction cs generalizing s₁ s₂ with
  | nil => exact ⟨rfl, h⟩
  | cons command more ih =>
    have hends := alike_step (hplain command (.head _)) s₁ s₂ h
    unfold Act.exec at hends
    have hroom₁ : ∀ e, (step command s₁).result = .error e → e.isBufferFull = false :=
      fun e he => hroom e (he ▸ .head _)
    have hroom₂ : ∀ e, .error e ∈ (Session.run (step command s₁).state more).1 →
        e.isBufferFull = false := fun e he => hroom e (.tail _ he)
    have hboth : (step command s₁).result = (step command s₂).result ∧
        Alongside c (step command s₁).state (step command s₂).state := by
      generalize (step command s₁).result = r₁ at hends hroom₁ ⊢
      generalize (step command s₁).state = t₁ at hends ⊢
      cases hends with
      | full hfull =>
        rw [hroom₁ _ rfl] at hfull
        cases hfull
      | same h' => exact ⟨rfl, h'⟩
    obtain ⟨hresults, hstates⟩ :=
      ih hboth.2 (fun _ hmem => hplain _ (.tail _ hmem)) hroom₂
    exact ⟨congrArg₂ List.cons hboth.1 hresults, hstates⟩

/-- What a command does that runs an act on the memory. -/
theorem step_onMemory (command : Command μ) {x : Act Memory α} {f : α → Reply}
    (hx : perform command = f <$> onCard (Card.onMemory x)) (s : Session μ) :
    (step command s).result = (x.exec s.card.memory).1.map f ∧
      (step command s).state.card = { s.card with memory := (x.exec s.card.memory).2 } ∧
      (step command s).state.templates = s.templates := by
  have hexec : (perform command).exec s = ((x.exec s.card.memory).1.map f,
      { s with card := { s.card with memory := (x.exec s.card.memory).2 } }) := by
    rw [hx, Act.exec_map]
    rfl
  exact ⟨congrArg (·.1) hexec, congrArg (·.2.card) hexec, congrArg (·.2.templates) hexec⟩

theorem Sound.alongside_begin (h : s.Sound) (hidle : s.card.memory.transaction.isIdle = true)
    (htear : s.card.memory.store.tear = none) :
    (Session.step .begin s).result = .ok .done ∧
      Alongside s.card.config (Session.step .begin s).state s := by
  have hsound := Operation.sound_act h.memory h.settled .begin
  have hexec : Memory.begin.exec s.card.memory = (.ok (), { s.card.memory with
      transaction := { s.card.memory.transaction with state := .explicit } }) := by
    rw [Memory.exec_begin, if_pos hidle]
  obtain ⟨hresult, hcard, htemplates⟩ := step_onMemory .begin rfl s
  rw [Operation.act, hexec] at hsound
  rw [hexec] at hresult hcard
  have htransaction := h.memory.idle_eq hidle
  refine ⟨hresult, ⟨by rw [hcard], rfl, ?_⟩, htemplates.symm⟩
  rw [hcard]
  exact
    { sound := hsound
      state := rfl
      room := by
        rw [htransaction]
        exact UInt32.zero_le
      untorn := htear
      eq := by rw [← htransaction] }

theorem Alongside.commit (h : Alongside c s₁ s₂) :
    (step .commit s₁).result = .ok .done ∧ (step .commit s₁).state.card = s₂.card ∧
      (step .commit s₁).state.templates = s₂.templates := by
  have hexec : Memory.commit.exec s₁.card.memory = (.ok (), s₂.card.memory) := by
    rw [Memory.exec_commit, h.card.memory.isIdle_eq, h.card.memory.eq,
      h.card.memory.sound.close_eq]
    rfl
  obtain ⟨hresult, hcard, htemplates⟩ := step_onMemory .commit rfl s₁
  rw [hexec] at hresult hcard
  refine ⟨hresult, ?_, htemplates.trans h.templates.symm⟩
  rw [hcard]
  show Card.mk s₁.card.config s₂.card.memory = s₂.card
  rw [h.card.inside, ← h.card.outside]

/-- A committed transaction means what its commands mean without it. If no transaction is open, no
tear is armed, and nothing fails for want of room in the commit buffer between a begin and a commit,
then both succeed, each command between them gives the result that it gives without a transaction,
and the card in the end is the same: its arrays with their bytes and digests, its pools, the next
reference, and no transaction with an empty log. -/
theorem committed_as_plain (hreachable : s.Reachable) (hdepth : s.card.transactionDepth = 0)
    (htear : s.card.memory.store.tear = none) {cs : List (Command μ)}
    (hplain : ∀ command ∈ cs, command.isPlain = true)
    (hroom : ∀ e, .error e ∈ (run s (.begin :: cs ++ [.commit])).1 → e.isBufferFull = false) :
    (run s (.begin :: cs ++ [.commit])).1 = .ok .done :: (run s cs).1 ++ [.ok .done] ∧
      (run s (.begin :: cs ++ [.commit])).2.card = (run s cs).2.card ∧
      (run s (.begin :: cs ++ [.commit])).2.templates = (run s cs).2.templates ∧
      (run s cs).2.card.memory.transaction = .idle s.card.config := by
  obtain ⟨hbegin, halong⟩ :=
    hreachable.sound.alongside_begin (depth_eq_zero_iff.mp hdepth) htear
  rw [run_append] at hroom ⊢
  have hinside : ∀ e, .error e ∈ (run (step .begin s).state cs).1 → e.isBufferFull = false :=
    fun e he => hroom e (List.mem_append_left _ (.tail _ he))
  obtain ⟨hresults, hend⟩ := halong.run hplain hinside
  obtain ⟨hcommit, hcard, htemplates⟩ := hend.commit
  refine ⟨?_, hcard, htemplates, ?_⟩
  · show ((step .begin s).result :: (run (step .begin s).state cs).1) ++
      [(step .commit (run (step .begin s).state cs).2).result] = _
    rw [hbegin, hresults, hcommit]
  · rw [hend.card.memory.eq]

/-- A write, a new array, a copy into it, a read out of range, and a template. -/
def mixedCommands : List (Command ConstantScore) :=
  [.setElement ⟨1⟩ 1 7, .makeTransient .short 2 1, .copy .atomic ⟨1⟩ 0 4 ⟨2⟩ 0, .getElement ⟨1⟩ 9,
    .makeTemplate 3 1 ⟨0⟩]

/-- They leave the same card whether or not they are done in a transaction. -/
theorem committed_as_plain_mixedCommands :
    (run oneArray (.begin :: mixedCommands ++ [.commit])).2.card =
      (run oneArray mixedCommands).2.card := by
  have hreachable : oneArray.Reachable := reachable_fresh.run _
  have hresults : (run oneArray (.begin :: mixedCommands ++ [.commit])).1 =
      [.ok .done, .ok .done, .ok (.array ⟨2⟩), .ok (.short 2),
        .error (.elementsOutside 9 1 ⟨1⟩ 4), .ok (.template 0 ⟨3⟩), .ok .done] := by rfl
  refine (committed_as_plain hreachable (by rfl) (by rfl) (by decide) fun e he => ?_).2.1
  rw [hresults] at he
  simp only [List.mem_cons, Except.error.injEq, reduceCtorEq, List.not_mem_nil, false_or,
    or_false] at he
  rw [he]
  rfl

end Session

end SmartCard
