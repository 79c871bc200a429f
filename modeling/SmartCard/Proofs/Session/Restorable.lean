-- SUMMARY: Rolling back never fails: every entry of the log can be restored, and every way of doing so ends idle.
import SmartCard.Proofs.Session.Capacity
import SmartCard.Proofs.Session.Recovery

/-!
# Rolling back never fails

The log is emptied before its entries are restored, so that an entry that could not be restored
would lose the rest of the rollback. There is no such entry in any memory that a session goes
through (`Memory.Restorable`), whatever was allocated, written or flipped since the entry was made.
-/

namespace SmartCard

variable {μ : Type} {c : Config} {m m' : Memory} {w : Write}

/-- A memory whose log can be restored, and what each way of rolling back makes of it. -/
structure Memory.Restorable (c : Config) (m : Memory) : Prop where
  entry : ∀ {e}, e ∈ m.transaction.log.entries → e.before ≠ [] ∧ ∃ cell,
    m.store.cell .store e.array = .ok cell ∧ cell.descriptor.lifetime.isPersistent = true ∧
      e.offset + e.before.length ≤ cell.payload.length
  restore : (UndoLog.restore m.transaction.log.entries).exec m.store = (.ok (), m.undone)
  byte : ∀ array i, m.undone.byte? array i =
    (UndoLog.kept? array i m.transaction.log.entries).or (m.store.byte? array i)
  abort : m.transaction.isIdle = false → Memory.abort.exec m = (.ok (), ⟨m.undone, .idle c⟩)
  reset : ∃ cleared, Memory.reset.exec m =
    (.ok cleared, ⟨m.undone.clearTransients fun _ => true, .idle c⟩)
  overflow : (Memory.rollBackOpen .overflow).exec
    { m with transaction := m.transaction.opened } = (.ok (), ⟨m.undone, .idle c⟩)
  recover : Memory.recover.exec m =
    (.ok (), ⟨Store.clearTransients { m.undone with tear := none } fun _ => true, .idle c⟩)

namespace Memory

theorem Sound.opened (h : m.Sound c) :
    Memory.Sound c { m with transaction := m.transaction.opened } where
  store := h.store
  entries := by
    rw [Transaction.log_opened]
    exact h.entries
  max_eq := by
    rw [Transaction.log_opened]
    exact h.max_eq
  overhead_eq := by
    rw [Transaction.log_opened]
    exact h.overhead_eq
  idle_eq := by
    intro hidle
    rw [Write.isIdle_opened] at hidle
    cases hidle

/-- Opening a transaction adds nothing to what a rollback would restore. -/
theorem Sound.rolledBack_opened (h : m.Sound c) :
    Memory.rolledBack { m with transaction := m.transaction.opened } = ⟨m.undone, .idle c⟩ := by
  unfold Memory.rolledBack
  rw [h.opened.close_eq, undone]
  simp only [Transaction.log_opened]
  rfl

theorem Sound.restorable (h : m.Sound c) (hb : m.transaction.log.Balanced) : m.Restorable c where
  entry := by
    intro e he
    obtain ⟨d, hd, hpersistent, hfits⟩ := h.entries he
    obtain ⟨cell, hfound, rfl⟩ := Table.descriptor?_eq_some_iff.mp hd
    refine ⟨hb.filled he, cell, h.store.cell_iff.mpr hfound, hpersistent, ?_⟩
    rw [(h.store.cells hfound).size]
    exact hfits
  restore := h.restored.exec
  byte := h.restored.byte
  abort := by
    intro hopen
    rw [h.exec_abort, hopen, ← h.close_eq]
    rfl
  reset := ⟨_, by rw [h.exec_reset, ← h.close_eq]; rfl⟩
  overflow := by rw [h.opened.exec_rollBackOpen, h.rolledBack_opened]
  recover := by
    rw [h.exec_recover, ← h.close_eq]
    rfl

end Memory

/-! ## Failing writes -/

namespace Write

/-- A store that takes no write reports a tear, or refuses it for a reason of its own. -/
theorem isBufferFull_answer {e : Fault} (he : w.answer m = .error e) : e.isBufferFull = false := by
  have hw := w.written m
  rw [he] at hw
  generalize (w.stored m).store = s at hw
  cases hw with
  | torn => rfl
  | refused _ _ hrefusal => exact hrefusal.2

/-- What a failing write leaves behind, if it fails for want of room or of power. -/
structure Reverts (c : Config) (w : Write) (m : Memory) (e : Fault) (m' : Memory) : Prop where
  full : e.isBufferFull = true → m' = ⟨m.undone, .idle c⟩
  lost : e.isPowerLoss = true → ∃ m₁, w.issued m = .ok m₁ ∧
    m' = ⟨Store.clearTransients { (w.stored m₁).undone with tear := none } fun _ => true, .idle c⟩

theorem reverts (h : m.Sound c) (hs : m.Settled) {e : Fault}
    (he : w.act.exec m = (.error e, m')) : Reverts c w m e m' := by
  rw [exec_act h hs] at he
  rcases hissued : w.issued m with e' | m₁
  · rw [hissued, ending] at he
    obtain ⟨heq, rfl⟩ := Prod.mk.inj he
    cases heq
    refine ⟨fun hfull => ?_, fun hloss => ?_⟩
    · rw [if_pos hfull, Memory.rolledBack, h.close_eq]
    · rcases hlogs : w.logs m with e'' | _ | _
      · rw [issued_of_refusal hlogs] at hissued
        cases hissued
        rw [(logs_isRefusal hlogs).1] at hloss
        cases hloss
      · rw [issued_of_unlogged hlogs] at hissued
        cases hissued
      · rw [issued_of_logged hlogs] at hissued
        rw [isPowerLoss_of_logged hissued] at hloss
        cases hloss
  · rw [hissued, ending, concluded] at he
    rcases hanswer : w.answer m₁ with e' | _
    · rw [hanswer] at he
      obtain ⟨heq, rfl⟩ := Prod.mk.inj he
      cases heq
      refine ⟨fun hfull => ?_, fun hloss => ⟨m₁, hissued, ?_⟩⟩
      · rw [isBufferFull_answer hanswer] at hfull
        cases hfull
      · simp only [hloss, if_true]
        rw [settled_eq (Memory.settled_of_idle rfl), Memory.recovered]
        have hclose := (sound_stored (w := w) (sound_issued h hissued)).close_eq
        rw [hclose]
    · rw [hanswer] at he
      cases he

end Write

namespace Session

variable [Matcher μ] {s : Session μ}

/-- Entries keep at least one byte in every memory that a session goes through. -/
theorem Sound.balanced_goesThrough (h : s.Sound) (hb : s.card.memory.transaction.log.Balanced)
    (hm : s.GoesThrough m) : m.transaction.log.Balanced := by
  have hissued : ∀ {command : Command μ} {m m' : Memory} {w : Write},
      (m, .write w) ∈ commandTrace s command → w.issued m = .ok m' →
      m'.transaction.log.Balanced := by
    intro command m m' w hmem hm'
    obtain ⟨ops, _, hasked, htrace⟩ := h.asked_of_mem hmem
    have hfilled := hasked.isFilled _ (mem_trace htrace)
    exact Write.balanced_issued (h.balanced_of_mem hb hmem).2.2 hfilled hm'
  cases hm with
  | between => exact hb
  | before hmem => exact (h.balanced_of_mem hb hmem).2.2
  | issued hmem hm' => exact hissued hmem hm'
  | stored hmem hm' =>
    have hlog := hissued hmem hm'
    exact hlog

/-- Rolling back never fails. In every memory that a session goes through, each entry of the log
keeps bytes of a persistent array that is there, within its payload, so that restoring the log
succeeds and gives back every byte it keeps. An abort, a reset, an overflow and the recovery after a
loss of power all succeed then, and leave no transaction and an empty log. A write that fails for
want of room or of power has done just that. -/
theorem rollback_never_fails (hreachable : s.Reachable) :
    (∀ {m}, s.GoesThrough m → m.Restorable s.card.config) ∧
    ∀ {command m w e m'}, (m, .write w) ∈ commandTrace s command →
      w.act.exec m = (.error e, m') → w.Reverts s.card.config m e m' := by
  have h := hreachable.sound
  have hb := hreachable.balanced
  constructor
  · intro m hm
    exact (h.goesThrough hm).restorable (h.balanced_goesThrough hb hm)
  · intro command m w e m' hmem he
    obtain ⟨hsound, hsettled, _⟩ := h.balanced_of_mem hb hmem
    exact Write.reverts hsound hsettled he

/-- With an open transaction and half a write in memory, an abort succeeds and empties the log. -/
theorem rollback_never_fails_tornWrite :
    Memory.abort.exec (tornWrite.stored beforeTear.card.memory) =
      (.ok (), ⟨(tornWrite.stored beforeTear.card.memory).undone, .idle {}⟩) := by
  have hreachable : beforeTear.Reachable := reachable_fresh.run _
  have hmem : (beforeTear.card.memory, .write tornWrite) ∈
      commandTrace beforeTear (.copy .nonAtomic ⟨1⟩ 0 2 ⟨1⟩ 2) := .head _
  have hm : beforeTear.GoesThrough (tornWrite.stored beforeTear.card.memory) := .stored hmem rfl
  have hopen : (tornWrite.stored beforeTear.card.memory).transaction.isIdle = false := by rfl
  exact ((rollback_never_fails hreachable).1 hm).abort hopen

end Session

end SmartCard
