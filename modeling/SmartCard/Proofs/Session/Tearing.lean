-- SUMMARY: Persistent integrity-sensitive arrays never tear, whatever the command and wherever the tear strikes.
import SmartCard.Proofs.Memory.Tearing
import SmartCard.Proofs.Session.Histories
import SmartCard.Proofs.Session.Ranges

/-!
# Arrays that never tear

Persistent integrity-sensitive arrays change by whole writes only, and by rollbacks as a whole. A
tear that strikes a command, be it in such an array or in another one, leaves each of them as it was
or brings it back to what it was when the open transaction was begun
(`Session.sensitive_arrays_never_tear`). Copies and fills without logging refuse them as
destinations.
-/

namespace SmartCard

variable {μ : Type}

open Operation

/-! ## Requests -/

namespace Command

/-- What may be asked of a card whose memory is left to itself: no bits are flipped, and templates
are used on the card that has their counters. -/
def IsOrdinary (s : Session μ) (command : Command μ) : Prop :=
  (∀ array, ¬command.FlipsBits array) ∧ command.Hosted s

theorem MayAsk.guards {c : Config} {s : Session μ} {command : Command μ} {op : Operation}
    (hmay : MayAsk s command op) (h : s.card.memory.store.Sound c)
    (hordinary : command.IsOrdinary s) : op.Guards s.card.memory := by
  cases op with
  | write w => exact fun d hd hatomic => hmay.logs h hordinary.2 hd hatomic
  | flip array => exact absurd hmay.flipsBits (hordinary.1 array)
  | _ => trivial

/-- Commands ask for operations that split no array that is to be written whole. -/
theorem guarded_request [Matcher μ] {c : Config} {s : Session μ}
    (h : s.card.memory.store.Sound c) {command : Command μ} (hordinary : command.IsOrdinary s) :
    AsksFor (Guarded s.card.memory) (command.request s) := by
  intro ops hr
  have hguards : ∀ op ∈ ops, op.Guards s.card.memory := fun op hop =>
    (mayAsk_request h command ops hr op hop).guards h hordinary
  cases asked_request h command ops hr with
  | nothing => exact .nothing
  | other => exact .one (hguards _ (.head _))
  | write => exact .one (hguards _ (.head _))
  | counter => exact .one (hguards _ (.head _))
  | enrolment hfree => exact .enrolment hfree rfl

end Command

namespace Session

variable {s : Session μ} {past : List (Session μ)} {command : Command μ} {array : ArrayRef}
  {d : Descriptor}

/-- The same session with no tear ahead. -/
def untorn (s : Session μ) : Session μ :=
  { s with card := { s.card with memory := s.card.memory.untorn } }

/-- Among past sessions, the one in which the transaction that is open now was begun: the last one
without an open transaction. -/
def begunIn (past : List (Session μ)) : Option (Session μ) :=
  past.find? fun p => p.card.transactionDepth == 0

theorem Sound.untorn (h : s.Sound) : s.untorn.Sound := ⟨h.config, h.memory.untorn, h.settled⟩

variable [Matcher μ]

/-- What a command asks has nothing to do with the tear. -/
theorem request_untorn {ops : List Operation} (hr : command.request s = .ok ops)
    (hasks : ops ≠ []) : command.request s.untorn = .ok ops := by
  have hquery : ((perform command).exec s).1.map (fun _ => ([] : List Operation)) ≠ .ok ops := by
    rcases ((perform command).exec s).1 with _ | _
    · nofun
    · intro hnil
      cases hnil
      exact hasks rfl
  cases command
  case begin => exact hr
  case commit => exact hr
  case abort => exact hr
  case makePersistent => exact hr
  case makeTransient => exact hr
  case makeSensitive => exact hr
  case setElement => exact hr
  case loadElements => exact hr
  case copy => exact hr
  case fill => exact hr
  case setShort => exact hr
  case setInt => exact hr
  case clearArray => exact hr
  case reset => exact hr
  case deselect => exact hr
  case injectPowerLoss => exact hr
  case injectBitFlip => exact hr
  case makeTemplate => exact hr
  case templateInitMatch => exact hr
  case templateMatch => exact hr
  case templateResetTryLimit => exact hr
  all_goals exact absurd hr hquery

/-- What a command may make of the payload of an array. -/
inductive Unsplit (past : List (Session μ)) (s : Session μ) (command : Command μ)
    (array : ArrayRef) (d : Descriptor) : Prop where
  | kept :
      (step command s).state.card.memory.store.payload? array =
        s.card.memory.store.payload? array →
      Unsplit past s command array d
  | whole :
      (step command s).state.card.memory.store.payload? array =
        (step command s.untorn).state.card.memory.store.payload? array →
      Unsplit past s command array d
  | rolledBack {s₀ : Session μ} :
      command ≠ .commit → s.card.transactionDepth = 1 →
      (step command s).state.card.transactionDepth = 0 → begunIn past = some s₀ →
      (step command s).state.card.memory.store.payload? array =
        some ((s₀.card.memory.store.payload? array).getD (List.replicate d.byteLength 0)) →
      Unsplit past s command array d

/-! ## Single commands -/

/-- A restoration succeeds or fails, and does what it does, whatever tear is ahead. -/
theorem memory_restore_untorn (config : Config) (bytes : List UInt8) (s : Session μ) :
    (step (.restore config bytes) s).state.card.memory = s.card.memory ∨
      (step (.restore config bytes) s).state.card.memory =
        (step (.restore config bytes) s.untorn).state.card.memory := by
  rw [card_step_restore, card_step_restore]
  rcases hok : ((Card.restore config bytes).exec s.card).1 with e | _
  · rw [card_of_restore_error hok]
    exact .inl rfl
  · refine .inr ?_
    unfold Act.exec Card.restore at hok ⊢
    dsimp only at hok ⊢
    split at hok
    · cases hok
    · split at hok
      · cases hok
      next image _ =>
        rcases hm : Image.powerUp config image with _ | _
        · rw [hm] at hok
          cases hok
        · rfl

/-- So does a flip of bits. -/
theorem Sound.unsplit_injectBitFlip (h : s.Sound) (flipped : ArrayRef) (byte : Nat) (mask : UInt8) :
    Memory.Unsplit array s.card.memory
      (Session.step (.injectBitFlip flipped byte mask) s).state.card.memory
      (Session.step (.injectBitFlip flipped byte mask) s.untorn).state.card.memory := by
  have hcarry : ∀ s : Session μ,
      Operation.carry s.card.memory (Command.request s (.injectBitFlip flipped byte mask)) =
        (act (.flip flipped byte mask)).exec s.card.memory := fun s => run_singleton _ _
  rw [h.card_step rfl, h.untorn.card_step rfl, hcarry, hcarry]
  refine .whole ?_
  unfold Store.payload?
  dsimp only
  rw [← table_flip_untorn]
  rfl

/-- No command that keeps the card splits what is to be written whole. -/
theorem Sound.unsplit_step (h : s.Sound) (hrestore : command.isRestore = false)
    (hhosted : command.Hosted s)
    (hd : (Session.step command s).state.card.memory.store.descriptor? array = some d)
    (hatomic : d.requiresAtomicWrites = true) :
    Memory.Unsplit array s.card.memory (Session.step command s).state.card.memory
      (Session.step command s.untorn).state.card.memory := by
  by_cases hflips : ∃ flipped, command.FlipsBits flipped
  · obtain ⟨flipped, hflips⟩ := hflips
    cases command
    case injectBitFlip => exact h.unsplit_injectBitFlip _ _ _
    all_goals exact hflips.elim
  · rw [h.card_step hrestore] at hd ⊢
    rw [h.untorn.card_step hrestore]
    rcases hr : command.request s with e | ops
    · exact .kept rfl
    · rw [hr] at hd
      have hguarded := Command.guarded_request h.memory.store
        ⟨fun flipped hflip => hflips ⟨flipped, hflip⟩, hhosted⟩ ops hr
      by_cases hasks : ops = []
      · subst hasks
        exact .kept rfl
      · rw [request_untorn hr hasks]
        exact hguarded.unsplit_run h.memory h.settled hd hatomic

/-! ## Open transactions -/

/-- No array disappears in a transaction that stays open, which no restoration leaves it. -/
theorem Sound.keeps_open (h : s.Sound)
    (hopen : (Session.step command s).state.card.memory.transaction.isIdle = false) :
    s.card.memory.store.Keeps (Session.step command s).state.card.memory.store := by
  rcases hrestore : command.isRestore with _ | _
  · exact h.keeps_step hrestore
  · rw [card_restore hrestore hopen]
    exact .refl _

/-- As long as the transaction stays open, a rollback would go on leaving the same payload, and
zeroes for a new array. -/
theorem Sound.undone_open (h : s.Sound) (hordinary : command.IsOrdinary s)
    (hd : (Session.step command s).state.card.memory.store.descriptor? array = some d)
    (hatomic : d.requiresAtomicWrites = true)
    (hopen : (Session.step command s).state.card.memory.transaction.isIdle = false) :
    (s.card.memory.store.descriptor? array = some d ∧
      (Session.step command s).state.card.memory.undone.payload? array =
        s.card.memory.undone.payload? array) ∨
    (s.card.memory.store.descriptor? array = none ∧
      (Session.step command s).state.card.memory.undone.payload? array =
        some (List.replicate d.byteLength 0)) := by
  rcases hrestore : command.isRestore with _ | _
  · rw [h.card_step hrestore] at hd hopen ⊢
    rcases hr : command.request s with e | ops
    · rw [hr] at hd
      exact .inl ⟨hd, rfl⟩
    · rw [hr] at hd hopen
      exact (Command.guarded_request h.memory.store hordinary ops hr).undone_run h.memory h.settled
        hd hatomic hopen
  · rw [card_restore hrestore hopen] at hd ⊢
    exact .inl ⟨hd, rfl⟩

/-- A session whose rollback would leave the arrays that are to be written whole as they are in
`s₀`, and those that `s₀` does not have zeroed. -/
structure GoesBackTo (s₀ s : Session μ) : Prop where
  keeps : s₀.card.memory.store.Keeps s.card.memory.store
  payload : ∀ {array d}, s.card.memory.store.descriptor? array = some d →
    d.requiresAtomicWrites = true → s.card.memory.undone.payload? array =
      some ((s₀.card.memory.store.payload? array).getD (List.replicate d.byteLength 0))

omit [Matcher μ] in
theorem Sound.goesBackTo_self (h : s.Sound)
    (hidle : s.card.memory.transaction.isIdle = true) : GoesBackTo s s where
  keeps := .refl _
  payload := by
    intro array d hd _
    obtain ⟨payload, hpayload, _⟩ := h.memory.store.payload?_isSome hd
    rw [undone_of_idle h.memory hidle, hpayload, Option.getD_some]

theorem GoesBackTo.step {s₀ : Session μ} (hback : GoesBackTo s₀ s) (h : s.Sound)
    (hordinary : command.IsOrdinary s)
    (hopen : (Session.step command s).state.card.memory.transaction.isIdle = false) :
    GoesBackTo s₀ (Session.step command s).state where
  keeps := hback.keeps.trans (h.keeps_open hopen)
  payload := by
    intro array d hd hatomic
    rcases h.undone_open hordinary hd hatomic hopen with ⟨hold, hsame⟩ | ⟨hnew, hzero⟩
    · rw [hsame]
      exact hback.payload hold hatomic
    · have habsent : s₀.card.memory.store.descriptor? array = none := by
        rcases hd₀ : s₀.card.memory.store.descriptor? array with _ | d₀
        · rfl
        · rw [hback.keeps array d₀ hd₀] at hnew
          cases hnew
      rw [hzero, Store.payload?_eq_none_iff.mpr habsent, Option.getD_none]

omit [Matcher μ] in
theorem begunIn_cons_of_open (hopen : s.card.memory.transaction.isIdle = false) :
    begunIn (s :: past) = begunIn past := by
  refine List.find?_cons_of_neg ?_
  rw [beq_iff_eq, depth_eq_zero_iff, hopen]
  exact Bool.false_ne_true

omit [Matcher μ] in
theorem begunIn_cons_of_idle (hidle : s.card.memory.transaction.isIdle = true) :
    begunIn (s :: past) = some s :=
  List.find?_cons_of_pos (beq_iff_eq.mpr (depth_eq_zero_iff.mpr hidle))

/-- Whatever the past is, the next command is an ordinary one. -/
def Ordinary (_ : List (Session μ)) (s : Session μ) (command : Command μ) : Prop :=
  command.IsOrdinary s

/-- A session with an open transaction goes back to the session in which it was begun. -/
theorem Leads.goesBackTo {start : Session μ} (hreachable : Reachable start)
    (hidle : start.card.memory.transaction.isIdle = true) (hleads : Leads Ordinary start past s)
    (hopen : s.card.memory.transaction.isIdle = false) :
    ∃ s₀, begunIn past = some s₀ ∧ GoesBackTo s₀ s := by
  induction hleads with
  | here =>
    rw [hidle] at hopen
    cases hopen
  | @step past s command hleads hordinary ih =>
    have hsound := (hleads.reachable hreachable s (.head _)).sound
    rcases hnow : s.card.memory.transaction.isIdle with _ | _
    · obtain ⟨s₀, hfound, hback⟩ := ih hnow
      refine ⟨s₀, ?_, hback.step hsound hordinary hopen⟩
      rw [begunIn_cons_of_open hnow]
      exact hfound
    · exact ⟨s, begunIn_cons_of_idle hnow,
        (hsound.goesBackTo_self hnow).step hsound hordinary hopen⟩

/-- An array that a command leaves as a rollback would has been there before. -/
theorem Sound.descriptor?_of_step (h : s.Sound) (hrestore : command.isRestore = false)
    (hd : (Session.step command s).state.card.memory.store.descriptor? array = some d)
    (hpayload : (Session.step command s).state.card.memory.store.payload? array =
      s.card.memory.undone.payload? array) :
    s.card.memory.store.descriptor? array = some d := by
  rcases hold : s.card.memory.store.descriptor? array with _ | old
  · have habsent : s.card.memory.undone.payload? array = none := by
      rw [Store.payload?_eq_none_iff, h.memory.descriptor?_undone]
      exact hold
    rw [habsent, Store.payload?_eq_none_iff, hd] at hpayload
    cases hpayload
  · rw [h.keeps_step hrestore array old hold] at hd
    exact hd

/-- A command that its checks refuse leaves the card alone. -/
theorem Sound.step_of_refused (h : s.Sound) (hrestore : command.isRestore = false) {e : Fault}
    (hr : command.request s = .error e) :
    (Session.step command s).state.card = s.card ∧
      (Session.step command s).result = .error e := by
  have hcard := h.card_step hrestore
  have hresult := h.result_step hrestore
  rw [hr] at hcard hresult
  refine ⟨hcard, ?_⟩
  rcases hstep : (Session.step command s).result with e' | _
  · rw [hstep] at hresult
    cases hresult
    rfl
  · rw [hstep] at hresult
    cases hresult

theorem Sound.store_commit (h : s.Sound) :
    (Session.step .commit s).state.card.memory.store = s.card.memory.store := by
  have hcarry : Operation.carry s.card.memory (Command.request s .commit) =
      Memory.commit.exec s.card.memory := run_singleton s.card.memory .commit
  rw [h.card_step rfl, hcarry, Memory.exec_commit]
  split <;> rfl

/-! ## The law -/

/-- Persistent integrity-sensitive arrays never tear. In any run of a new card whose bits nobody
flips, and whatever tear is ahead, a command leaves the payload of such an array as it was or makes
of it what it makes with no tear ahead, or it closes the open transaction by a rollback, and the
payload is again what it was when that transaction was begun. Copies and fills without logging
refuse such an array as their destination, whether a transaction is open or not. -/
theorem sensitive_arrays_never_tear {config : Config} {card : Card}
    (hnew : Card.new config = .ok card) (hleads : Leads Ordinary (.start card) past s)
    (hhosted : command.Hosted s) :
    (∀ {array d}, (step command s).state.card.memory.store.descriptor? array = some d →
      d.requiresAtomicWrites = true → Unsplit past s command array d) ∧
    ∀ {array d}, s.card.memory.store.descriptor? array = some d → d.requiresAtomicWrites = true →
      command.IsUnloggedOn array →
        (step command s).state.card = s.card ∧ (∃ e, (step command s).result = .error e) ∧
        ((∃ ops, command.atomicForm.request s = .ok ops) →
          (step command s).result = .error (.nonAtomicWrite array)) := by
  have hreachable : Reachable (start card : Session μ) := .start hnew
  have hidle : (start card : Session μ).card.memory.transaction.isIdle = true := by
    unfold Card.new at hnew
    split at hnew <;> cases hnew
    rfl
  have hsound := (hleads.reachable hreachable s (.head _)).sound
  constructor
  · intro array d hd hatomic
    rcases hrestore : command.isRestore with _ | _
    · cases hsound.unsplit_step hrestore hhosted hd hatomic with
      | kept hkept => exact .kept hkept
      | whole hwhole => exact .whole hwhole
      | rolledBack hopen hclosed hpayload =>
        by_cases hcommit : command = .commit
        · subst hcommit
          exact .kept (by rw [hsound.store_commit])
        · obtain ⟨s₀, hbegun, hback⟩ := hleads.goesBackTo hreachable hidle hopen
          have hold := hsound.descriptor?_of_step hrestore hd hpayload
          exact .rolledBack hcommit (beq_iff_eq.mp (depth_eq_one_iff.mpr hopen))
            (depth_eq_zero_iff.mpr hclosed) hbegun (hpayload.trans (hback.payload hold hatomic))
    · cases command
      case restore config bytes =>
        rcases memory_restore_untorn config bytes s with hsame | hsame
        · exact .kept (by rw [hsame])
        · exact .whole (by rw [hsame])
      all_goals cases hrestore
  · intro array d hd hatomic hunlogged
    obtain ⟨⟨e, hr⟩, hatomicForm⟩ :=
      Command.request_of_unlogged hsound.memory.store hd hatomic hunlogged
    obtain ⟨hcard, hresult⟩ := hsound.step_of_refused hunlogged.isRestore hr
    refine ⟨hcard, ⟨e, hresult⟩, fun hok => ?_⟩
    rw [hatomicForm hok, Except.error.injEq] at hr
    rw [hresult, hr]

/-- A transaction that writes to the sensitive array, with power for one more byte. -/
def underway : Session ConstantScore := (run sensitiveArray [.begin, .setElement ⟨1⟩ 0 5]).2

/-- A tear in the middle of the next write brings the array back to what it was in the beginning. -/
theorem sensitive_arrays_never_tear_underway :
    ∃ past, begunIn past = some sensitiveArray ∧
      Unsplit past underway (.setShort ⟨1⟩ 2 9) ⟨1⟩ ⟨.byte, 4, .persistent, true⟩ ∧
      (step (.setShort ⟨1⟩ 2 9) underway).state.card.memory.store.payload? ⟨1⟩ =
        some [0, 7, 0, 0] := by
  have hnew : Card.new {} = .ok (.blank {}) := rfl
  have hleads : Leads Ordinary fresh _ underway :=
    ((((Leads.here.step (.makeSensitive .byte 0 4) ⟨fun _ => id, nofun⟩).step
      (.setElement ⟨1⟩ 1 7) ⟨fun _ => id, nofun⟩).step
      (.injectPowerLoss 2) ⟨fun _ => id, nofun⟩).step
      .begin ⟨fun _ => id, nofun⟩).step
      (.setElement ⟨1⟩ 0 5) ⟨fun _ => id, nofun⟩
  have hhosted : Command.Hosted underway (.setShort ⟨1⟩ 2 9) := nofun
  have hd : (step (.setShort ⟨1⟩ 2 9) underway).state.card.memory.store.descriptor? ⟨1⟩ =
      some ⟨.byte, 4, .persistent, true⟩ := by decide +kernel
  obtain ⟨hunsplit, _⟩ := sensitive_arrays_never_tear hnew hleads hhosted
  exact ⟨_, rfl, hunsplit hd rfl, by decide +kernel⟩

end Session

end SmartCard
