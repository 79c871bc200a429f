-- SUMMARY: Rejected commands leave no trace: a command that fails other than for power or room changes nothing.
import SmartCard.Proofs.Memory.Arrays
import SmartCard.Proofs.Session.Ranges
import SmartCard.Proofs.Session.Runs

/-!
# Rejected commands

A command fails for want of power, for want of room in the commit buffer, or because it is rejected.
A rejected command leaves the card exactly as it was. For a command on a template this presupposes
that the counter of the template is on the card (`Session.Hosts`): it was made there, and arrays
never disappear.
-/

namespace SmartCard

variable {μ : Type} {c : Config} {m : Memory} {w : Write}

/-- Whether an operation that ends so has left the memory alone if it was rejected. -/
def Memory.Rejects (m : Memory) (r : Except Fault Unit × Memory) : Prop :=
  ∀ e, r.1 = .error e → e.IsRefusal → r.2 = m

/-! ## Rejected operations -/

/-- A write in range is never rejected. -/
theorem Write.rejects_act {m₀ : Memory} (hw : w.InRange m.store) (h : m.Sound c) (hs : m.Settled) :
    m₀.Rejects (w.act.exec m) := by
  have hended := ended hw h hs
  generalize w.act.exec m = r at hended
  intro e he hrefusal
  cases hended with
  | done => cases he
  | lost _ hloss =>
    cases he
    rw [hrefusal.1] at hloss
    cases hloss
  | full _ _ hfull =>
    cases he
    rw [hrefusal.2] at hfull
    cases hfull

namespace Operation

/-- Whatever is not a write changes nothing when it fails. -/
theorem rejects_act (h : m.Sound c) {op : Operation} (hop : ∀ w, op ≠ .write w) :
    m.Rejects (op.act.exec m) := by
  intro e he _
  cases op with
  | write w => exact absurd rfl (hop w)
  | begin =>
    rw [act, Memory.exec_begin] at he ⊢
    split at he
    · cases he
    next hopen => rw [if_neg hopen]
  | commit =>
    rw [act, Memory.exec_commit] at he ⊢
    split at he
    next hidle => rw [if_pos hidle]
    · cases he
  | abort =>
    rw [act, h.exec_abort] at he ⊢
    split at he
    next hidle => rw [if_pos hidle]
    · cases he
  | allocate d =>
    rw [exec_allocate] at he ⊢
    rcases hd : m.store.allocate d with e' | ⟨_, _⟩
    · rfl
    · rw [hd] at he
      cases he
  | reset =>
    rw [exec_reset h] at he
    cases he
  | deselect =>
    rw [exec_deselect] at he
    cases he
  | arm bytes => cases he
  | flip array byte mask =>
    rw [exec_flip] at he ⊢
    rcases hf : m.store.flipBits array byte mask with _ | _
    · rfl
    · rw [hf] at he
      cases he

/-- The first write to a new array lies within it. -/
theorem inRange_of_allocate (h : m.Sound c) {d : Descriptor} {array : ArrayRef} {s : Store}
    (hd : m.store.allocate d = .ok (array, s)) (hfree : m.store.freeRef = .ok w.array)
    (hfits : w.offset + w.bytes.length ≤ d.byteLength) : w.InRange s := by
  have harray : array = w.array := by
    have hfree' := Store.freeRef_of_allocate hd
    rw [hfree, Except.ok.injEq] at hfree'
    exact hfree'.symm
  exact ⟨d, by rw [h.store.descriptor?_allocate hd, if_pos harray.symm], hfits⟩

/-- A new array with a first write that lies within it: only the allocation can be rejected. -/
theorem rejects_enrolment (h : m.Sound c) (hs : m.Settled) {d : Descriptor}
    (hfree : m.store.freeRef = .ok w.array) (hfits : w.offset + w.bytes.length ≤ d.byteLength) :
    m.Rejects (run m [.allocate d, .write w]) := by
  rcases hd : m.store.allocate d with e | ⟨array, s⟩
  · intro e' _ _
    rw [run, exec_allocate, hd]
  · rw [run, exec_allocate, hd]
    dsimp only
    rw [run_singleton]
    exact Write.rejects_act (inRange_of_allocate h hd hfree hfits) (sound_allocate h hd) hs

end Operation

namespace Session

variable [Matcher μ] {s : Session μ} {command : Command μ}

/-! ## Counters on the card -/

/-- Whether the counter of a template is an array of the card, made as a counter. -/
def Hosts (s : Session μ) (t : Template μ) : Prop :=
  s.card.memory.store.descriptor? t.counter = some TryCounter.descriptor

/-- A card hosts the templates made on it. -/
theorem Sound.hosts_make (h : s.Sound) {bioType limit : UInt8} {matcher : μ} {position : Nat}
    {array : ArrayRef} (hmake : (Session.step (.makeTemplate bioType limit matcher) s).result =
      .ok (.template position array)) :
    ∃ t,
      (Session.step (.makeTemplate bioType limit matcher) s).state.templates[position]? = some t ∧
      (Session.step (.makeTemplate bioType limit matcher) s).state.Hosts t := by
  obtain ⟨m, hm, rfl, hexec⟩ := exec_make_of_ok hmake
  have hcard : (Session.step (.makeTemplate bioType limit matcher) s).state.card =
      { s.card with memory := m } := congrArg (·.2.card) hexec
  have htemplates : (Session.step (.makeTemplate bioType limit matcher) s).state.templates =
      s.templates ++ [Template.blank bioType array matcher] := congrArg (·.2.templates) hexec
  refine ⟨Template.blank bioType array matcher, ?_, ?_⟩
  · rw [htemplates]
    exact List.getElem?_concat_length
  · unfold Hosts
    rw [hcard]
    exact (TryCounter.holds_make h.memory h.settled hm).descriptor

/-- No array disappears from a card until another card takes its place. -/
theorem Sound.keeps_step (h : s.Sound) (hrestore : command.isRestore = false) :
    s.card.memory.store.Keeps (Session.step command s).state.card.memory.store := by
  rw [h.card_step hrestore]
  rcases command.request s with e | ops
  · exact .refl _
  · exact Operation.keeps_run h.memory h.settled ops

/-- So a card goes on hosting its templates. -/
theorem Sound.hosts_step (h : s.Sound) {t : Template μ} (ht : s.Hosts t)
    (hrestore : command.isRestore = false) : (Session.step command s).state.Hosts t :=
  h.keeps_step hrestore _ _ ht

/-! ## The law -/

/-- What a command asks of the memory is rejected without a trace. -/
theorem Sound.rejects_request (h : s.Sound)
    (hcounter : ∀ {position t}, command.position? = some position →
      s.templates[position]? = some t → s.Hosts t) :
    s.card.memory.Rejects (Operation.carry s.card.memory (command.request s)) := by
  rcases hr : command.request s with e | ops
  · intro _ _ _
    rfl
  · rw [Operation.carry_ok]
    cases Command.asked_request h.memory.store command ops hr with
    | nothing => exact fun _ he => nomatch he
    | other hop =>
      rw [Operation.run_singleton]
      exact Operation.rejects_act h.memory hop
    | write _ hrange =>
      rw [Operation.run_singleton]
      exact Write.rejects_act hrange h.memory h.settled
    | counter hposition ht _ hfits =>
      rw [Operation.run_singleton]
      exact Write.rejects_act ⟨_, hcounter hposition ht, hfits⟩ h.memory h.settled
    | enrolment hfree => exact Operation.rejects_enrolment h.memory h.settled hfree (Nat.le_refl 2)

omit [Matcher μ] in
/-- A restoration that fails does so whatever card is at hand, and leaves that card alone. -/
theorem outcome_of_restore_error {config : Config} {bytes : List UInt8} {card : Card} {e : Fault}
    (other : Card) : ((Card.restore config bytes).exec card).1 = .error e →
      Card.restore config bytes other = ⟨.error e, other, [], []⟩ := by
  unfold Act.exec Card.restore
  dsimp only
  split
  · intro he
    cases he
    rfl
  · split
    · intro he
      cases he
      rfl
    · split
      · intro he
        cases he
        rfl
      · intro he
        cases he

omit [Matcher μ] in
theorem card_of_restore_error {config : Config} {bytes : List UInt8} {card : Card} {e : Fault}
    (he : ((Card.restore config bytes).exec card).1 = .error e) :
    ((Card.restore config bytes).exec card).2 = card :=
  congrArg Outcome.state (outcome_of_restore_error card he)

/-- A restoration that powers no card up is refused, in this session as in any other. -/
theorem perform_restore_refused (hrestore : command.isRestore = true) (hcard : ¬command.PowersUp s) :
    ∃ e : Fault, e.IsRefusal ∧
      ∀ other : Session μ, perform command other = ⟨.error e, other, [], []⟩ := by
  cases command
  case restore config bytes =>
    rcases hrefused : ((Card.restore config bytes).exec s.card).1 with e | _
    · refine ⟨e, refuses_restore config bytes s.card e hrefused, fun other => ?_⟩
      have hsame := outcome_of_restore_error other.card hrefused
      have honCard : Session.onCard (Card.restore config bytes) other =
          ⟨.error e, other, [], []⟩ := by
        rw [Session.onCard, Act.zoom, hsame]
      show (Session.onCard (Card.restore config bytes) >>= fun _ => pure Reply.done) other = _
      exact Act.bind_of_error honCard
    · exact absurd hrefused hcard
  all_goals cases hrestore

theorem step_restore_refused (hrestore : command.isRestore = true) (hcard : ¬command.PowersUp s) :
    ∃ e : Fault, e.IsRefusal ∧ (Session.step command s).result = .error e ∧
      (Session.step command s).state.card = s.card := by
  obtain ⟨e, hrefusal, hperform⟩ := perform_restore_refused hrestore hcard
  exact ⟨e, hrefusal, congrArg Outcome.result (hperform s),
    congrArg (fun o => o.state.card) (hperform s)⟩

/-- Rejected commands have no effect on the card. If a command fails, and neither for want of power
nor for want of room in the commit buffer, then the card is as before: its arrays with their bytes
and digests, its pools, the next reference, the transaction with its log, and the tear. A command on
a template is on one whose counter is on the card. -/
theorem rejected_has_no_effect (hreachable : s.Reachable)
    (hcounter : ∀ {position t}, command.position? = some position →
      s.templates[position]? = some t → s.Hosts t)
    {e : Fault} (he : (step command s).result = .error e) (hloss : e.isPowerLoss = false)
    (hfull : e.isBufferFull = false) : (step command s).state.card = s.card := by
  have h := hreachable.sound
  rcases hrestore : command.isRestore with _ | _
  · have hresult := h.result_step hrestore
    rw [he] at hresult
    rw [h.card_step hrestore, h.rejects_request hcounter e hresult.symm ⟨hloss, hfull⟩]
  · cases command
    case restore config bytes =>
      have hresult : ((Card.restore config bytes).exec s.card).1 = .error e := by
        have hstep : (step (.restore config bytes) s).result =
            ((Card.restore config bytes).exec s.card).1.map fun _ => Reply.done := by
          show ((perform (.restore config bytes)).exec s).1 = _
          rw [perform, Act.exec_map]
          rfl
        rw [he] at hstep
        rcases hr : ((Card.restore config bytes).exec s.card).1 with e' | _
        · rw [hr] at hstep
          cases hstep
          rfl
        · rw [hr] at hstep
          cases hstep
      rw [card_step_restore]
      exact card_of_restore_error hresult
    all_goals cases hrestore

/-- The session of a card with one template, which is made first. -/
def enrolled : Session ConstantScore := (step (.makeTemplate 3 1 ⟨0⟩) fresh).state

/-- The same with an open transaction and a tear ahead. -/
def atRisk : Session ConstantScore := (run enrolled [.begin, .injectPowerLoss 1]).2

/-- A rejected try limit spends neither the tear budget nor a byte of the commit buffer. -/
theorem rejected_has_no_effect_zeroLimit :
    (step (.templateResetTryLimit 0 0) atRisk).state.card = atRisk.card := by
  have hmake : (step (.makeTemplate 3 1 ⟨0⟩) fresh).result = .ok (.template 0 ⟨1⟩) := by rfl
  have hresult : (step (.templateResetTryLimit 0 0) atRisk).result = .error .zeroTryLimit := by rfl
  have henrolled : enrolled.Reachable := reachable_fresh.step _
  have hbegun : (step .begin enrolled).state.Reachable := henrolled.step .begin
  obtain ⟨t, ht, hhosts⟩ := reachable_fresh.sound.hosts_make hmake
  have hopened : (step .begin enrolled).state.Hosts t := henrolled.sound.hosts_step hhosts rfl
  have hstays : (step (.injectPowerLoss 1) (step .begin enrolled).state).state.Hosts t :=
    hbegun.sound.hosts_step hopened rfl
  refine rejected_has_no_effect (hbegun.step _) (fun hposition ht' => ?_) hresult rfl rfl
  -- There is only one template, and what came after it left it alone.
  cases Option.some.inj hposition
  have htemplates : atRisk.templates = (step (.makeTemplate 3 1 ⟨0⟩) fresh).state.templates := rfl
  rw [htemplates, ht, Option.some.injEq] at ht'
  exact ht' ▸ hstays

end Session

end SmartCard
