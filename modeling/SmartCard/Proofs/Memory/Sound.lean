-- SUMMARY: The memory invariant, and what rollback, power loss and reset make of a memory that satisfies it.
import SmartCard.Proofs.Memory.Undo

/-!
# Sound memories

A memory is sound when its store is, when its undo log can be restored, and when no log is kept
without an open transaction. Rollback then always succeeds. What it leaves behind is a function of
the memory (`Memory.rolledBack`), and so is what the card comes up with after a loss of power
(`Memory.recovered`).
-/

namespace SmartCard

namespace Memory

/-- The memory invariant, under the configuration that the card was made with. -/
structure Sound (c : Config) (m : Memory) : Prop where
  store : m.store.Sound c
  entries : ∀ {e : UndoEntry}, e ∈ m.transaction.log.entries → e.InRange m.store
  max_eq : m.transaction.log.max = c.commitCapacity
  overhead_eq : m.transaction.log.overhead = c.commitEntryOverhead
  idle_eq : m.transaction.isIdle = true → m.transaction = .idle c

/-- Between operations an open transaction is one that an applet has begun. -/
def Settled (m : Memory) : Prop := m.transaction.state ≠ .implicit

/-- The store with the open transaction undone. -/
def undone (m : Memory) : Store := m.store.undone m.transaction.log.entries

/-- The memory after a rollback. -/
def rolledBack (m : Memory) : Memory := ⟨m.undone, m.transaction.close⟩

/-- The memory after the loss of power. -/
def recovered (m : Memory) : Memory :=
  ⟨Store.clearTransients { m.undone with tear := none } fun _ => true, m.transaction.close⟩

/-- The memory after a reset. -/
def wasReset (m : Memory) : Memory :=
  ⟨m.undone.clearTransients fun _ => true, m.transaction.close⟩

variable {c : Config} {m : Memory}

/-! ## Transactions -/

theorem Sound.close_eq (h : m.Sound c) : m.transaction.close = .idle c := by
  simp [Transaction.close, Transaction.idle, UndoLog.clear, UndoLog.empty, h.max_eq, h.overhead_eq]

theorem Sound.entries_of_idle (h : m.Sound c) (hidle : m.transaction.isIdle = true) :
    m.transaction.log.entries = [] := by
  rw [h.idle_eq hidle]
  rfl

theorem settled_of_idle (h : m.transaction.isIdle = true) : m.Settled := by
  intro himplicit
  simp [Transaction.isIdle, himplicit] at h

theorem Sound.empty (c : Config) : (Memory.empty c).Sound c where
  store := .empty c
  entries := by intro e he; cases he
  max_eq := rfl
  overhead_eq := rfl
  idle_eq := by intro _; rfl

/-- A sound store without a transaction. -/
theorem Sound.ofStore {s : Store} (h : s.Sound c) : Memory.Sound c ⟨s, .idle c⟩ where
  store := h
  entries := by intro e he; cases he
  max_eq := rfl
  overhead_eq := rfl
  idle_eq := by intro _; rfl

/-- A memory stays sound when its store does and the persistent arrays keep their descriptors. -/
theorem Sound.withStore (h : m.Sound c) {s : Store} (hs : s.Sound c)
    (hd : ∀ {array d}, m.store.descriptor? array = some d → s.descriptor? array = some d) :
    Memory.Sound c { m with store := s } where
  store := hs
  entries := by
    intro e he
    obtain ⟨d, hold, hrest⟩ := h.entries he
    exact ⟨d, hd hold, hrest⟩
  max_eq := h.max_eq
  overhead_eq := h.overhead_eq
  idle_eq := h.idle_eq

/-! ## Rollback -/

theorem Sound.restored (h : m.Sound c) :
    Store.Restored c m.transaction.log.entries m.store m.undone :=
  h.store.restored_undone h.entries

theorem Sound.rolledBack (h : m.Sound c) : m.rolledBack.Sound c := by
  unfold Memory.rolledBack
  rw [h.close_eq]
  exact .ofStore h.restored.sound

theorem Sound.recovered (h : m.Sound c) : m.recovered.Sound c := by
  unfold Memory.recovered
  rw [h.close_eq]
  exact .ofStore ((h.restored.sound.withTear none).clearTransients _)

theorem Sound.wasReset (h : m.Sound c) : m.wasReset.Sound c := by
  unfold Memory.wasReset
  rw [h.close_eq]
  exact .ofStore (h.restored.sound.clearTransients _)

/-- Without a transaction there is nothing to roll back. -/
theorem Sound.rolledBack_of_idle (h : m.Sound c) (hidle : m.transaction.isIdle = true) :
    m.rolledBack = m := by
  unfold Memory.rolledBack undone
  rw [h.entries_of_idle hidle, Store.undone_nil, h.close_eq, ← h.idle_eq hidle]

theorem undone_withTear (tear : Option UInt64) (m : Memory) :
    undone { m with store := { m.store with tear := tear } } = { m.undone with tear := tear } :=
  Store.undone_withTear tear _ _

/-- Rolling back cannot fail. -/
theorem Sound.exec_rollBackOpen (h : m.Sound c) (cause : AbortCause) :
    (rollBackOpen cause).exec m = (.ok (), m.rolledBack) := by
  simp only [rollBackOpen, Act.exec_bind, Act.exec_read, Act.exec_ite, Act.exec_pure]
  split
  next hidle => rw [h.rolledBack_of_idle hidle]
  next =>
    simp only [exec_setTransaction, rollBack, Act.exec_bind, exec_onStore, h.restored.exec,
      Act.exec_emit, Act.exec_note]
    rfl

theorem exec_clearTransients (ends : Lifetime → Bool) (m : Memory) :
    (clearTransients ends).exec m =
      (.ok (m.store.countTransients ends), { m with store := m.store.clearTransients ends }) := by
  simp only [clearTransients, Act.exec_bind, Act.exec_read, exec_onStore, Act.exec_modify,
    Act.exec_emit, Act.exec_note, Act.exec_pure]

theorem Sound.exec_recover (h : m.Sound c) : recover.exec m = (.ok (), m.recovered) := by
  have hm : Memory.Sound c { m with store := { m.store with tear := none } } :=
    h.withStore (h.store.withTear none) id
  simp only [recover, Act.exec_bind, Act.exec_emit, Act.exec_note, exec_onStore, Store.setTear,
    Act.exec_modify, hm.exec_rollBackOpen, exec_clearTransients, Act.exec_pure]
  unfold Memory.rolledBack Memory.recovered
  rw [undone_withTear]

theorem Sound.exec_reset (h : m.Sound c) :
    reset.exec m = (.ok (m.undone.countTransients fun _ => true), m.wasReset) := by
  simp only [reset, Act.exec_bind, h.exec_rollBackOpen, exec_clearTransients]
  rfl

theorem exec_begin (m : Memory) :
    begin.exec m =
      if m.transaction.isIdle then
        (.ok (), { m with transaction := { m.transaction with state := .explicit } })
      else (.error .transactionOpen, m) := by
  unfold begin Transaction.begin?
  by_cases hidle : m.transaction.isIdle = true
  · simp only [hidle, if_true, Act.exec_bind, Act.exec_query, exec_setTransaction, Act.exec_emit,
      Act.exec_note]
  · simp only [hidle, Bool.false_eq_true, if_false, Act.exec_bind, Act.exec_query]

theorem exec_commit (m : Memory) :
    commit.exec m =
      if m.transaction.isIdle then (.error .commitWithoutTransaction, m)
      else (.ok (), { m with transaction := m.transaction.close }) := by
  unfold commit
  by_cases hidle : m.transaction.isIdle = true
  · simp only [hidle, if_true, Act.exec_bind, Act.exec_read, Act.exec_fail]
  · simp only [hidle, Bool.false_eq_true, if_false, Act.exec_bind, Act.exec_read,
      exec_setTransaction, Act.exec_emit,
      Act.exec_ite, Act.exec_pure, Act.exec_note, ite_self]

theorem Sound.exec_abort (h : m.Sound c) :
    abort.exec m =
      if m.transaction.isIdle then (.error .abortWithoutTransaction, m)
      else (.ok (), m.rolledBack) := by
  unfold abort
  by_cases hidle : m.transaction.isIdle = true
  · simp only [hidle, if_true, Act.exec_bind, Act.exec_read, Act.exec_fail]
  · simp only [hidle, Bool.false_eq_true, if_false, Act.exec_bind, Act.exec_read,
      h.exec_rollBackOpen]

/-! ## Bytes after a rollback -/

/-- After a rollback a byte has the value that its oldest entry kept, and the present one without an
entry. -/
theorem Sound.byte?_undone (h : m.Sound c) (array : ArrayRef) (i : Nat) :
    m.undone.byte? array i =
      (UndoLog.kept? array i m.transaction.log.entries).or (m.store.byte? array i) :=
  h.restored.byte array i

theorem Sound.descriptor?_undone (h : m.Sound c) : m.undone.descriptor? = m.store.descriptor? :=
  h.restored.descriptor

theorem Sound.byte?_recovered (h : m.Sound c) {array : ArrayRef} (hp : m.store.IsPersistent array)
    (i : Nat) : m.recovered.store.byte? array i = m.undone.byte? array i := by
  have hundone : Store.IsPersistent { m.undone with tear := none } array := by
    obtain ⟨d, hd, hpersistent⟩ := hp
    refine ⟨d, ?_, hpersistent⟩
    rw [← h.descriptor?_undone] at hd
    exact hd
  exact Store.byte?_clearTransients hundone (fun _ => true) i

theorem Sound.byte?_wasReset (h : m.Sound c) {array : ArrayRef} (hp : m.store.IsPersistent array)
    (i : Nat) : m.wasReset.store.byte? array i = m.undone.byte? array i := by
  have hundone : m.undone.IsPersistent array := by
    unfold Store.IsPersistent
    rw [h.descriptor?_undone]
    exact hp
  exact Store.byte?_clearTransients hundone (fun _ => true) i

end Memory

end SmartCard
