-- SUMMARY: The life of transient arrays: what clears them, what else changes them, and that transactions have no part in it.
import SmartCard.Proofs.Memory.Transients
import SmartCard.Proofs.Session.Ranges
import SmartCard.Proofs.Session.Recovery
import SmartCard.Proofs.Session.Refusals
import SmartCard.Proofs.Session.Rejections
import SmartCard.Proofs.Session.Runs

/-!
# Transient arrays in runs

From a new card on, a transient array has the bytes that writes and flips have given it since it was
made or last cleared, whatever became of the transactions in which they were written
(`Session.transient_lifetime`). It is cleared by resets and losses of power, and if it lasts until
deselection then by that as well.
-/

namespace SmartCard

variable {μ : Type} {m : Memory} {array : ArrayRef} {d : Descriptor}

open Operation

/-! ## Operations of a command -/

/-- A run fails in a way if one of its operations does. -/
theorem Operation.failsBy_run_iff (kind : Fault → Bool) (m : Memory) (ops : List Operation) :
    failsBy kind (run m ops).1 = true ↔
      ∃ step ∈ trace m ops, failsBy kind (step.2.act.exec step.1).1 = true := by
  induction ops generalizing m with
  | nil => simp [run, trace]
  | cons op more ih =>
    rw [run, trace, List.exists_mem_cons_iff]
    rcases op.act.exec m with ⟨e | _, m'⟩
    · simp
    · simpa using ih m'

namespace Session

variable [Matcher μ] {s : Session μ} {command : Command μ} {cs : List (Command μ)}

/-- The arrays of a session are there with each operation of a command. -/
theorem Sound.keeps_of_mem (h : s.Sound) {op : Operation}
    (hmem : (m, op) ∈ commandTrace s command) :
    m.Sound s.card.config ∧ m.Settled ∧ s.card.memory.store.Keeps m.store := by
  unfold commandTrace at hmem
  split at hmem
  · obtain ⟨_, hbefore⟩ := kept_run (P := fun m' => s.card.memory.store.Keeps m'.store)
      (fun op _ _ h' hs' hkeeps => hkeeps.trans (keeps_act h' hs' op)) h.memory h.settled (.refl _)
    exact hbefore hmem
  · cases hmem

/-- The operations of a command that leaves the card in its place lead to the memory it leaves. -/
theorem Sound.steps_kept (h : s.Sound) (hcard : ¬command.PowersUp s) :
    Steps s.card.memory (commandTrace s command)
      (Session.step command s).state.card.memory := by
  rcases hrestore : command.isRestore with _ | _
  · exact h.steps_command hrestore
  · obtain ⟨_, _, _, hsame⟩ := step_restore_refused hrestore hcard
    rw [commandTrace_restore hrestore, hsame]
    exact .nil

/-- A command loses power if one of its operations does. -/
theorem Sound.losesPower_iff (h : s.Sound) (hcard : ¬command.PowersUp s) :
    failsBy Fault.isPowerLoss (Session.step command s).result = true ↔
      ∃ step ∈ commandTrace s command,
        failsBy Fault.isPowerLoss (step.2.act.exec step.1).1 = true := by
  rcases hrestore : command.isRestore with _ | _
  · rw [← failsBy_map _ (fun _ => ()), h.result_step hrestore]
    unfold commandTrace
    rcases hr : command.request s with e | ops
    · simp [(command.isRefusal_request s e hr).1]
    · exact failsBy_run_iff _ _ _
  · obtain ⟨e, hrefusal, hresult, _⟩ := step_restore_refused hrestore hcard
    rw [commandTrace_restore hrestore, hresult]
    simp [hrefusal.1]

theorem yields_of_mem {op : Operation} (hmem : (m, op) ∈ commandTrace s command) :
    command.Yields op := by
  unfold commandTrace at hmem
  rcases hr : command.request s with e | ops
  · rw [hr] at hmem
    cases hmem
  · rw [hr] at hmem
    exact Command.yields_request s command ops hr op (mem_trace hmem)

/-- A transient array is cleared by a reset, by a loss of power, and by deselection if it lasts until
then. -/
theorem Sound.cleared_iff (h : s.Sound) (hcard : ¬command.PowersUp s)
    (hd : s.card.memory.store.descriptor? array = some d) :
    .cleared ∈ history array (commandTrace s command) ↔
      command = .reset ∨ (command = .deselect ∧ d.lifetime = .transientDeselect) ∨
        failsBy Fault.isPowerLoss (Session.step command s).result = true := by
  rw [h.losesPower_iff hcard, history, List.mem_filterMap]
  constructor
  · rintro ⟨⟨m, op⟩, hmem, hcleared⟩
    obtain ⟨hsound, _, hkeeps⟩ := h.keeps_of_mem hmem
    rcases (change?_eq_cleared_iff hsound (hkeeps array d hd)).mp hcleared with
      rfl | ⟨rfl, hends⟩ | hloss
    · cases yields_of_mem hmem
      exact .inl rfl
    · cases yields_of_mem hmem
      exact .inr (.inl ⟨rfl, hends⟩)
    · exact .inr (.inr ⟨_, hmem, hloss⟩)
  · rintro (rfl | ⟨rfl, hends⟩ | ⟨⟨m, op⟩, hmem, hloss⟩)
    · exact ⟨(s.card.memory, .reset), .head _, change?_reset h.memory⟩
    · exact ⟨(s.card.memory, .deselect), .head _, (change?_deselect hd).trans (if_pos hends)⟩
    · obtain ⟨hsound, _, hkeeps⟩ := h.keeps_of_mem hmem
      exact ⟨(m, op), hmem,
        (change?_eq_cleared_iff hsound (hkeeps array d hd)).mpr (.inr (.inr hloss))⟩

/-! ## Commands that spare transient arrays -/

/-- A command that fails without losing power changes nothing of an array that was there. -/
theorem Sound.unchanged_of_failure (h : s.Sound) {e : Fault}
    (he : (Session.step command s).result = .error e) (hkept : e.isPowerLoss = false)
    (hd : s.card.memory.store.descriptor? array = some d) :
    ∀ step ∈ commandTrace s command, step.2.change? array step.1 = none := by
  have hone : ∀ (m : Memory) (op : Operation), (Operation.run m [op]).1 = .error e →
      ∀ step ∈ Operation.trace m [op], step.2.change? array step.1 = none := by
    intro m op hends
    rw [run_singleton] at hends
    rw [Operation.trace_singleton, List.forall_mem_singleton]
    exact change?_of_failure hends hkept
  rcases hrestore : command.isRestore with _ | _
  · have hends := h.result_step hrestore
    rw [he] at hends
    unfold commandTrace
    rcases hr : command.request s with e' | ops
    · exact List.forall_mem_nil _
    · rw [hr, carry_ok] at hends
      cases Command.asked_request h.memory.store command ops hr with
      | nothing => exact List.forall_mem_nil _
      | other => exact hone _ _ hends.symm
      | write => exact hone _ _ hends.symm
      | counter => exact hone _ _ hends.symm
      | @enrolment made limit _ =>
        -- The new array is none that was there, and it is the write that has failed.
        rw [Operation.run] at hends
        dsimp only
        rw [Operation.trace]
        refine List.forall_mem_cons.mpr ⟨change?_allocate_of_old hd, ?_⟩
        generalize (Operation.act (.allocate TryCounter.descriptor)).exec s.card.memory = r at hends ⊢
        rcases r with ⟨e' | _, m'⟩
        · exact List.forall_mem_nil _
        · exact hone m' _ hends.symm
  · rw [commandTrace_restore hrestore]
    exact List.forall_mem_nil _

/-- Whether a command begins, commits or aborts a transaction, or fails for want of room. -/
inductive Transacts (s : Session μ) : Command μ → Prop where
  | begin : Transacts s .begin
  | commit : Transacts s .commit
  | abort : Transacts s .abort
  | overflow {command : Command μ} {e : Fault} :
      (step command s).result = .error e → e.isBufferFull = true → Transacts s command

theorem Transacts.not_powersUp (htransacts : Transacts s command) : ¬command.PowersUp s := by
  cases htransacts with
  | begin => exact id
  | commit => exact id
  | abort => exact id
  | overflow he =>
    intro hpowers
    cases command
    case restore config bytes =>
      have hdone : ((Card.restore config bytes).exec s.card).1 = .ok () := hpowers
      rw [result_step_restore, hdone] at he
      cases he
    all_goals exact hpowers

/-- Such a command leaves the bytes of transient arrays alone. -/
theorem Transacts.payload? (htransacts : Transacts s command) (h : s.Sound)
    (ht : s.card.memory.store.IsTransient array) :
    (step command s).state.card.memory.store.payload? array =
      s.card.memory.store.payload? array := by
  obtain ⟨d, hd, htransient⟩ := ht
  have hone : ∀ op : Operation, (∀ m, op.change? array m = none) →
      ∀ step ∈ Operation.trace s.card.memory [op], step.2.change? array step.1 = none := by
    intro op hop
    rw [Operation.trace_singleton, List.forall_mem_singleton]
    exact hop _
  have hkept : ∀ step ∈ commandTrace s command, step.2.change? array step.1 = none := by
    cases htransacts with
    | begin => exact hone .begin fun _ => rfl
    | commit => exact hone .commit fun _ => rfl
    | abort => exact hone .abort fun _ => rfl
    | overflow he hfull =>
      exact h.unchanged_of_failure he (Fault.isPowerLoss_of_isBufferFull hfull) hd
  exact (h.steps_kept htransacts.not_powersUp).payload?_kept h.memory h.settled hd htransient hkept

/-! ## Runs -/

/-- The operations of a run lead to the memory that it leaves. -/
theorem Sound.steps_run (h : s.Sound) (hcard : KeepsCard s cs) :
    Steps s.card.memory (Session.trace s cs) (Session.run s cs).2.card.memory := by
  induction cs generalizing s with
  | nil => exact .nil
  | cons command more ih => exact (h.steps_kept hcard.head).append (ih (h.step command) hcard.tail)

/-! ## The laws -/

/-- What holds of the transient arrays of a session. -/
structure TransientRules (s : Session μ) : Prop where
  /-- They are cleared by a reset, by a loss of power, and by deselection if they last until then. -/
  cleared : ∀ {command : Command μ} {array d}, ¬command.PowersUp s →
    s.card.memory.store.descriptor? array = some d → d.lifetime.isTransient = true →
    (.cleared ∈ history array (commandTrace s command) ↔
      command = .reset ∨ (command = .deselect ∧ d.lifetime = .transientDeselect) ∨
        failsBy Fault.isPowerLoss (step command s).result = true)
  /-- Transactions and overflows leave their bytes alone. -/
  spared : ∀ {command array}, Transacts s command → s.card.memory.store.IsTransient array →
    (step command s).state.card.memory.store.payload? array = s.card.memory.store.payload? array
  /-- The undo log never names one. -/
  unlogged : ∀ {m}, s.GoesThrough m → ∀ e ∈ m.transaction.log.entries,
    m.store.IsPersistent e.array
  /-- Writes to them cost no room in the commit buffer. -/
  free : ∀ {command m w}, (m, .write w) ∈ commandTrace s command → m.store.IsTransient w.array →
    w.issued m = .ok m ∧ (failsBy Fault.isPowerLoss (w.act.exec m).1 = false →
      (w.act.exec m).2.transaction = m.transaction)
  /-- Deselection leaves an open transaction alone, and all other arrays. -/
  deselected : (step .deselect s).state.card.memory.transaction = s.card.memory.transaction ∧
    ∀ {array d}, s.card.memory.store.descriptor? array = some d →
      d.lifetime ≠ .transientDeselect →
      (step .deselect s).state.card.memory.store.table.find? array =
        s.card.memory.store.table.find? array
  reset_count : (step .reset s).result =
    .ok (.count {array | ∃ d, s.card.memory.store.descriptor? array = some d ∧
      d.lifetime.isTransient = true}.ncard)
  deselect_count : (step .deselect s).result =
    .ok (.count {array | ∃ d, s.card.memory.store.descriptor? array = some d ∧
      d.lifetime = .transientDeselect}.ncard)

theorem Sound.result_reset (h : s.Sound) : (Session.step .reset s).result =
    .ok (.count (s.card.memory.undone.countTransients fun _ => true)) := by
  show ((perform .reset).exec s).1 = _
  rw [perform, Act.exec_map]
  show Except.map Reply.count (Memory.reset.exec s.card.memory).1 = _
  rw [h.memory.exec_reset]
  rfl

theorem result_deselect (s : Session μ) : (step .deselect s).result =
    .ok (.count (s.card.memory.store.countTransients (· == .transientDeselect))) := by
  show ((perform .deselect).exec s).1 = _
  rw [perform, Act.exec_map]
  rfl

theorem Sound.transientRules (h : s.Sound) : s.TransientRules where
  cleared := fun hcard hd _ => h.cleared_iff hcard hd
  spared := fun htransacts ht => htransacts.payload? h ht
  unlogged := by
    intro m hm e he
    obtain ⟨d, hd, hpersistent, _⟩ := (h.goesThrough hm).entries he
    exact ⟨d, hd, hpersistent⟩
  free := by
    intro command m w hmem ht
    obtain ⟨hsound, hsettled, _⟩ := h.keeps_of_mem hmem
    exact ⟨Write.issued_of_transient hsound ht,
      Write.transaction_act_of_transient hsound hsettled ht⟩
  deselected := by
    have hleft : (Session.step .deselect s).state.card.memory =
        { s.card.memory with
          store := s.card.memory.store.clearTransients (· == .transientDeselect) } := by
      have hcarry : Operation.carry s.card.memory (Command.request s .deselect) =
          (Operation.act .deselect).exec s.card.memory := run_singleton s.card.memory .deselect
      rw [h.card_step rfl, hcarry, exec_deselect]
    rw [hleft]
    refine ⟨rfl, fun hd hlasts => Store.find?_of_lasting hd ?_⟩
    rw [Bool.and_eq_false_iff, beq_eq_false_iff_ne]
    exact .inr hlasts
  reset_count := by
    rw [h.result_reset, Store.countTransients_eq, h.memory.descriptor?_undone]
    simp only [Bool.and_true]
  deselect_count := by
    have hends : ∀ l : Lifetime, (l.isTransient && l == .transientDeselect) = true ↔
        l = .transientDeselect := by
      intro l
      cases l <;> decide
    rw [result_deselect, Store.countTransients_eq]
    simp only [hends]

/-- The life of transient arrays. At every point of a run of a new card, the payload of a transient
array is what the writes and flips make of zeros that came after it was made or last cleared, each
write that succeeded and each flip, one after the other. What clears it, and that transactions have
no part in its life, is in `TransientRules`. -/
theorem transient_lifetime {config : Config} {card : Card} (hnew : Card.new config = .ok card)
    (hcard : KeepsCard (.start card) cs) (hs : s = (run (.start card) cs).2) :
    (∀ {array d}, s.card.memory.store.descriptor? array = some d →
      d.lifetime.isTransient = true → s.card.memory.store.payload? array =
        some (Change.outcome d.byteLength (history array (trace (.start card) cs)))) ∧
    s.TransientRules := by
  subst hs
  have h : (start card : Session μ).Sound := sound_start hnew
  have hempty : ∀ array, card.memory.store.descriptor? array = none := by
    unfold Card.new at hnew
    split at hnew <;> cases hnew
    exact fun _ => rfl
  refine ⟨fun {array d} hd ht => ?_, ((Reachable.start hnew).run cs).sound.transientRules⟩
  have htracks : (start card : Session μ).card.memory.Tracks array [] := by
    intro _ hd'
    have habsent : (start card : Session μ).card.memory.store.descriptor? array = none :=
      hempty array
    rw [habsent] at hd'
    cases hd'
  exact (h.steps_run hcard).tracks h.memory h.settled htracks d hd ht

/-- Two transient arrays, of which deselection clears the second, and an aborted transaction. -/
def aborted : List (Command ConstantScore) :=
  [.makeTransient .byte 4 1, .makeTransient .byte 2 2, .setElement ⟨1⟩ 0 5, .setElement ⟨2⟩ 0 8,
    .deselect, .begin, .setElement ⟨1⟩ 1 7, .injectBitFlip ⟨1⟩ 1 1, .abort]

/-- The first array has kept what was written before the deselection and in the transaction. -/
theorem transient_lifetime_aborted :
    (run fresh aborted).2.card.memory.store.payload? ⟨1⟩ = some [5, 6, 0, 0] ∧
      (step .reset (run fresh aborted).2).result =
        .ok (.count {array | ∃ d,
          (run fresh aborted).2.card.memory.store.descriptor? array = some d ∧
            d.lifetime.isTransient = true}.ncard) := by
  have hnew : Card.new {} = .ok (.blank {}) := rfl
  have hcard : KeepsCard fresh aborted := by
    refine keepsCard_of_plain fun c hc => ?_
    simp only [aborted, List.mem_cons, List.not_mem_nil, or_false] at hc
    rcases hc with rfl | rfl | rfl | rfl | rfl | rfl | rfl | rfl | rfl <;> rfl
  obtain ⟨hpayload, hrules⟩ := transient_lifetime hnew hcard rfl
  have hd : (run fresh aborted).2.card.memory.store.descriptor? ⟨1⟩ =
      some ⟨.byte, 4, .transientReset, false⟩ := by decide +kernel
  refine ⟨(hpayload hd rfl).trans ?_, hrules.reset_count⟩
  decide +kernel

end Session

end SmartCard
