-- SUMMARY: Writes on the four lanes as one notion: when a write is logged, when it is refused, and how it ends.
import SmartCard.Memory.Lanes
import SmartCard.Proofs.Memory.Sound

/-!
# Writes on a lane

A `Write` is a lane with a range and the bytes for it. Whatever the lane, a write first reaches the
memory that hands the bytes to the store, with an undo entry if it keeps one (`Write.issued`), and
then ends in one of three ways that the store decides. `Write.exec_act` says so once for all lanes.
-/

namespace SmartCard

inductive Lane where
  | atomic
  | participating
  | direct
  | unconditional
  deriving DecidableEq, Repr

/-- Bytes to be written on a lane. -/
structure Write where
  lane : Lane
  array : ArrayRef
  offset : Nat
  bytes : List UInt8
  deriving DecidableEq, Repr

/-- The open transaction, or the implicit one that the card opens for a write. -/
def Transaction.opened (t : Transaction) : Transaction := if t.isIdle then t.beginImplicit else t

/-- The memory once an implicit transaction has been committed. -/
def Memory.settled (m : Memory) : Memory :=
  if m.transaction.state = .implicit then { m with transaction := m.transaction.close } else m

namespace Write

def act (w : Write) : Act Memory Unit :=
  match w.lane with
  | .atomic => Memory.writeAtomic w.array w.offset w.bytes
  | .participating => Memory.writeParticipating w.array w.offset w.bytes
  | .direct => Memory.writeDirect w.array w.offset w.bytes
  | .unconditional => Memory.writeUnconditional w.array w.offset w.bytes

/-- Whether a write keeps an undo entry. Only the lanes that may keep one look the array up. -/
def logs (w : Write) (m : Memory) : Except Fault Bool :=
  match w.lane with
  | .atomic => (m.store.descriptor .store w.array).map fun d => d.lifetime.isPersistent
  | .participating => (m.store.descriptor .store w.array).map fun d =>
    d.lifetime.isPersistent && (!m.transaction.isIdle || d.requiresAtomicWrites)
  | .direct | .unconditional => .ok false

/-- The memory with the before-image of a write in its log. -/
def logged (w : Write) (m : Memory) : Except Fault Memory := do
  let before ← m.store.read w.array w.offset w.bytes.length
  let t ← m.transaction.opened.logBefore? ⟨w.array, w.offset, before⟩
  pure { m with transaction := t }

/-- The memory in which a write hands its bytes to the store. -/
def issued (w : Write) (m : Memory) : Except Fault Memory := do
  if ← w.logs m then w.logged m else pure m

/-- What the store answers to a write. -/
def answer (w : Write) (m : Memory) : Except Fault Unit :=
  ((Store.write w.array w.offset w.bytes).exec m.store).1

/-- The memory right after the store took the bytes, or as many of them as it could. -/
def stored (w : Write) (m : Memory) : Memory :=
  { m with store := ((Store.write w.array w.offset w.bytes).exec m.store).2 }

variable {c : Config} {m m' : Memory} {w : Write} {e : Fault}

theorem written (w : Write) (m : Memory) :
    Store.Written w.array w.offset w.bytes m.store (w.answer m, (w.stored m).store) :=
  Store.written w.array w.offset w.bytes m.store

theorem sound_stored (h : m.Sound c) : (w.stored m).Sound c :=
  h.withStore h.store.write fun hd => by
    rw [Store.descriptor?_write]
    exact hd

/-! ## Logging -/

theorem logBefore?_eq_ok_iff {t t' : Transaction} {entry : UndoEntry} :
    t.logBefore? entry = .ok t' ↔
      t.log.fits entry.before.length = true ∧ t' = { t with log := t.log.push entry } := by
  unfold Transaction.logBefore?
  by_cases h : t.log.fits entry.before.length = true
  · simp only [h, if_true, Except.ok.injEq, true_and]
    exact eq_comm
  · simp only [h, if_false, reduceCtorEq, false_and]

theorem logBefore?_isBufferFull {t : Transaction} {entry : UndoEntry}
    (h : t.logBefore? entry = .error e) : e.isBufferFull = true := by
  unfold Transaction.logBefore? at h
  split at h
  · cases h
  · cases h
    rfl

theorem logged_eq_ok_iff :
    w.logged m = .ok m' ↔
      ∃ before t, m.store.read w.array w.offset w.bytes.length = .ok before ∧
        m.transaction.opened.logBefore? ⟨w.array, w.offset, before⟩ = .ok t ∧
        m' = { m with transaction := t } := by
  unfold logged
  rcases hread : m.store.read w.array w.offset w.bytes.length with _ | before
  · simp [bind, Except.bind]
  · rcases hlog : m.transaction.opened.logBefore? ⟨w.array, w.offset, before⟩ with _ | t
    · simp [bind, Except.bind, hlog]
    · simp [bind, Except.bind, hlog, pure, Except.pure, eq_comm]

/-- The entry of a logged write keeps the bytes that it is about to overwrite. -/
theorem entries_logged (h : w.logged m = .ok m') :
    ∃ before, m.store.read w.array w.offset w.bytes.length = .ok before ∧
      m'.store = m.store ∧ m'.transaction.state = m.transaction.opened.state ∧
      m'.transaction.log.entries = ⟨w.array, w.offset, before⟩ :: m.transaction.log.entries := by
  obtain ⟨before, t, hread, hlog, rfl⟩ := logged_eq_ok_iff.mp h
  obtain ⟨_, rfl⟩ := logBefore?_eq_ok_iff.mp hlog
  refine ⟨before, hread, rfl, rfl, ?_⟩
  unfold Transaction.opened
  split <;> rfl

/-- The transaction that a logged write opens is implicit. -/
theorem implicit_logged (hidle : m.transaction.isIdle = true) (h : w.logged m = .ok m') :
    m'.transaction.state = .implicit := by
  obtain ⟨_, _, _, hstate, _⟩ := entries_logged h
  rw [hstate, Transaction.opened, if_pos hidle]
  rfl

theorem isIdle_opened (t : Transaction) : t.opened.isIdle = false := by
  unfold Transaction.opened
  split
  · rfl
  next h => exact Bool.not_eq_true _ ▸ h

theorem isIdle_logged (h : w.logged m = .ok m') : m'.transaction.isIdle = false := by
  obtain ⟨_, _, _, hstate, _⟩ := entries_logged h
  have hopened := isIdle_opened m.transaction
  unfold Transaction.isIdle at hopened ⊢
  rw [hstate]
  exact hopened

theorem sound_logged (h : m.Sound c) (hp : m.store.IsPersistent w.array)
    (hm : w.logged m = .ok m') : m'.Sound c := by
  obtain ⟨before, t, hread, hlog, rfl⟩ := logged_eq_ok_iff.mp hm
  obtain ⟨_, rfl⟩ := logBefore?_eq_ok_iff.mp hlog
  have hlogged : m.transaction.opened.log = m.transaction.log := by
    unfold Transaction.opened
    split <;> rfl
  refine ⟨h.store, ?_, ?_, ?_, ?_⟩
  · intro e he
    rw [hlogged] at he
    rcases List.mem_cons.mp he with rfl | hold
    · obtain ⟨cell, hcell, hfits⟩ := Store.read_eq_ok_iff.mp hread
      obtain ⟨d, hd, hpersistent⟩ := hp
      obtain ⟨found, hfound, rfl⟩ := Table.descriptor?_eq_some_iff.mp hd
      rw [h.store.cell_iff, hfound, Option.some.injEq] at hcell
      subst hcell
      refine ⟨found.descriptor, hd, hpersistent, ?_⟩
      rw [← (h.store.cells hfound).size, Cell.length_of_read hfits]
      exact (Cell.read_eq_ok_iff.mp hfits).1
    · exact h.entries hold
  · rw [hlogged]
    exact h.max_eq
  · rw [hlogged]
    exact h.overhead_eq
  · intro hidle
    have hopen := isIdle_opened m.transaction
    rw [Transaction.isIdle] at hidle hopen
    rw [hopen] at hidle
    cases hidle

/-- Where the before-image could be read, only a tear keeps the store from writing all bytes. -/
theorem isPowerLoss_of_read {before : List UInt8}
    (hread : m.store.read w.array w.offset w.bytes.length = .ok before)
    (he : w.answer m = .error e) : e.isPowerLoss = true := by
  obtain ⟨cell, hcell, hfits⟩ := Store.read_eq_ok_iff.mp hread
  have hlength := (Cell.read_eq_ok_iff.mp hfits).1
  have hw := w.written m
  rw [he] at hw
  generalize (w.stored m).store = s at hw
  cases hw with
  | torn => rfl
  | @refused _ _ leading hprefix hput _ =>
    have hput' := Store.restoreBytes_eq_ok_iff.mpr
      ⟨cell, hcell, (by have := hprefix.length_le; omega : w.offset + leading.length ≤ _), rfl⟩
    rw [hput] at hput'
    cases hput'

/-! ## Running writes -/

/-- How a write ends once the store has it: with all bytes, after a tear, or refused. -/
def concluded (w : Write) (m : Memory) : Except Fault Unit × Memory :=
  match w.answer m with
  | .ok () => (.ok (), w.stored m)
  | .error e => (.error e, if e.isPowerLoss then (w.stored m).recovered else w.stored m)

theorem concluded_of_ok (hanswer : w.answer m = .ok ()) : w.concluded m = (.ok (), w.stored m) := by
  rw [concluded, hanswer]

theorem concluded_of_refused {e : Fault} (hanswer : w.answer m = .error e)
    (hkept : e.isPowerLoss = false) : w.concluded m = (.error e, w.stored m) := by
  simp only [concluded, hanswer, hkept, Bool.false_eq_true, if_false]

theorem concluded_of_lost {e : Fault} (hanswer : w.answer m = .error e)
    (hloss : e.isPowerLoss = true) : w.concluded m = (.error e, (w.stored m).recovered) := by
  simp only [concluded, hanswer, hloss, if_true]

/-- How a write ends, given the memory in which it is issued. The memory at first is `m`. -/
def ending (w : Write) (m : Memory) : Except Fault Memory → Except Fault Unit × Memory
  | .error e => (.error e, if e.isBufferFull then m.rolledBack else m)
  | .ok m' => ((w.concluded m').1, (w.concluded m').2.settled)

theorem exec_writeStore (h : m.Sound c) (w : Write) :
    (Memory.writeStore w.array w.offset w.bytes).exec m = w.concluded m := by
  have hrecover : Memory.recover.exec
      { m with store := ((Store.write w.array w.offset w.bytes).exec m.store).2 } =
        (.ok (), (w.stored m).recovered) := (sound_stored h).exec_recover
  unfold Memory.writeStore concluded answer
  rw [Act.exec_onFault, Memory.exec_onStore]
  rcases ((Store.write w.array w.offset w.bytes).exec m.store).1 with e | _
  · by_cases hloss : e.isPowerLoss = true
    · simp only [hloss, if_true, hrecover]
    · simp only [hloss, Bool.false_eq_true, if_false, Act.exec_pure]
      rfl
  · rfl

/-- Logging and writing in an open transaction. -/
theorem exec_writeLogged (h : m.Sound c) (hp : m.store.IsPersistent w.array)
    (hopen : m.transaction.isIdle = false) :
    (Memory.writeLogged w.array w.offset w.bytes).exec m = match w.logged m with
      | .error e => (.error e, if e.isBufferFull then m.rolledBack else m)
      | .ok m' => w.concluded m' := by
  have hopened : m.transaction.opened = m.transaction := by
    simp [Transaction.opened, hopen]
  unfold Memory.writeLogged
  simp only [Act.exec_bind, Act.exec_query, Act.exec_read]
  rcases hread : m.store.read w.array w.offset w.bytes.length with e | before
  · have hfault := (Store.read_isRefusal hread).2
    have hlogged : w.logged m = .error e := by
      unfold logged
      rw [hread]
      rfl
    simp only [hlogged, hfault, Bool.false_eq_true, if_false]
  · rcases hlog : m.transaction.logBefore? ⟨w.array, w.offset, before⟩ with e | t
    · have hfault := logBefore?_isBufferFull hlog
      have hlogged : w.logged m = .error e := by
        unfold logged
        rw [hread, hopened]
        show (m.transaction.logBefore? ⟨w.array, w.offset, before⟩ >>= fun t => _) = _
        rw [hlog]
        rfl
      simp only [hlogged, hlog, hfault, if_true, Act.exec_onFault, Act.exec_query, Act.exec_bind,
        Act.exec_emit, Act.exec_note, h.exec_rollBackOpen]
    · have hlogged : w.logged m = .ok { m with transaction := t } :=
        logged_eq_ok_iff.mpr ⟨before, t, hread, by rw [hopened]; exact hlog, rfl⟩
      have hsound := sound_logged h hp hlogged
      simp only [hlogged, hlog, Act.exec_onFault, Act.exec_query, Memory.exec_setTransaction,
        Act.exec_emit, exec_writeStore hsound w]

theorem settled_eq (hs : m.Settled) : m.settled = m := if_neg hs

theorem settled_concluded (hs : m.Settled) :
    (w.concluded m).2.settled = (w.concluded m).2 := by
  unfold concluded
  rcases w.answer m with e | _
  · dsimp only
    split
    · exact settled_eq (Memory.settled_of_idle rfl)
    · exact settled_eq hs
  · exact settled_eq hs

/-- After a fault the atomic lane rolls an implicit transaction back, if nothing else has done so.
-/
theorem exec_closeImplicit (h : m.Sound c) :
    Act.exec (do
      let t ← Act.read Memory.transaction
      if t.state == .implicit then Memory.rollBackOpen .explicit else pure ()) m =
      (.ok (), if m.transaction.state = .implicit then m.rolledBack else m) := by
  simp only [Act.exec_bind, Act.exec_read, Act.exec_ite, h.exec_rollBackOpen, Act.exec_pure,
    beq_iff_eq]
  split <;> rfl

/-- Without a transaction the atomic lane opens an implicit one. A tear or an overflow closes it
before the lane itself can. -/
theorem exec_writeImplicit (h : m.Sound c) (hp : m.store.IsPersistent w.array)
    (hidle : m.transaction.isIdle = true) :
    Act.exec (do
      Memory.setTransaction m.transaction.beginImplicit
      Act.emit (.begun true)
      (Memory.writeLogged w.array w.offset w.bytes).onFault fun _ => do
        let t ← Act.read Memory.transaction
        if t.state == .implicit then Memory.rollBackOpen .explicit else pure ()
      Memory.commit) m = w.ending m (w.logged m) := by
  let m₀ : Memory := { m with transaction := m.transaction.beginImplicit }
  have hm₀ : m₀.Sound c :=
    ⟨h.store, h.entries, h.max_eq, h.overhead_eq, fun himplicit => by cases himplicit⟩
  have hopened : m₀.transaction.opened = m.transaction.opened := by
    simp only [Transaction.opened, hidle, if_true]
    rfl
  have hlogged : w.logged m₀ = w.logged m := by
    unfold logged
    rw [hopened]
  have hrun := exec_writeLogged hm₀ hp rfl
  rw [hlogged] at hrun
  rw [Act.exec_bind_of_ok (Memory.exec_setTransaction _ _), Act.exec_bind_of_ok (Act.exec_emit _ _)]
  unfold ending
  rcases hm' : w.logged m with e | m'
  · rw [hm'] at hrun
    by_cases hfull : e.isBufferFull = true
    · simp only [hfull, if_true] at hrun ⊢
      have hclose := exec_closeImplicit hm₀.rolledBack
      exact Act.exec_bind_of_error (Act.exec_onFault_of_error hrun hclose)
    · simp only [hfull, Bool.false_eq_true, if_false] at hrun ⊢
      have hclose := exec_closeImplicit hm₀
      have hback : m₀.rolledBack = m := h.rolledBack_of_idle hidle
      rw [if_pos (show m₀.transaction.state = .implicit from rfl), hback] at hclose
      exact Act.exec_bind_of_error (Act.exec_onFault_of_error hrun hclose)
  · have hsound := sound_logged h hp hm'
    obtain ⟨before, hread, hstore, _, _⟩ := entries_logged hm'
    have himplicit := implicit_logged hidle hm'
    rw [hm'] at hrun
    dsimp only at hrun ⊢
    unfold concluded at hrun ⊢
    rcases hanswer : w.answer m' with e | _
    · rw [← hstore] at hread
      have hloss := isPowerLoss_of_read hread hanswer
      simp only [hanswer, hloss, if_true] at hrun ⊢
      have hclose := exec_closeImplicit (sound_stored (w := w) hsound).recovered
      rw [if_neg (Memory.settled_of_idle rfl)] at hclose
      rw [settled_eq (Memory.settled_of_idle rfl)]
      exact Act.exec_bind_of_error (Act.exec_onFault_of_error hrun hclose)
    · simp only [hanswer] at hrun ⊢
      rw [Act.exec_bind_of_ok (Act.exec_onFault_of_ok hrun), Memory.exec_commit]
      have hopen : m'.transaction.isIdle = false := isIdle_logged hm'
      simp only [stored, hopen, Bool.false_eq_true, if_false, Memory.settled, himplicit, if_true]

theorem exec_writeLogged_settled (h : m.Sound c) (hs : m.Settled)
    (hp : m.store.IsPersistent w.array) (hopen : m.transaction.isIdle = false) :
    (Memory.writeLogged w.array w.offset w.bytes).exec m = w.ending m (w.logged m) := by
  rw [exec_writeLogged h hp hopen]
  rcases hm' : w.logged m with e | m'
  · rfl
  · have hm'settled : m'.Settled := by
      obtain ⟨_, _, _, hstate, _⟩ := entries_logged hm'
      unfold Memory.Settled
      rw [hstate, Transaction.opened, hopen]
      exact hs
    rw [ending, settled_concluded hm'settled]

theorem exec_descriptor {origin : Origin} {array : ArrayRef} {d : Descriptor}
    (hd : m.store.descriptor origin array = .ok d) :
    (Act.query fun m : Memory => m.store.descriptor origin array).exec m = (.ok d, m) := by
  rw [Act.exec_query, hd]

/-- In an open transaction a write on the atomic lane is just logged. -/
theorem exec_writeAtomic (h : m.Sound c) (hs : m.Settled) {d : Descriptor}
    (hd : m.store.descriptor .store w.array = .ok d) (hp : d.lifetime.isPersistent = true) :
    (Memory.writeAtomic w.array w.offset w.bytes).exec m = w.ending m (w.logged m) := by
  have hpersistent : m.store.IsPersistent w.array := ⟨d, h.store.descriptor_iff.mp hd, hp⟩
  have htransient := Lifetime.not_transient_of_persistent hp
  unfold Memory.writeAtomic
  rw [Act.exec_bind_of_ok (exec_descriptor hd), Act.exec_bind_of_ok (Act.exec_read _ _)]
  simp only [htransient, Bool.false_eq_true, if_false]
  by_cases hidle : m.transaction.isIdle = true
  · rw [if_pos hidle]
    exact exec_writeImplicit h hpersistent hidle
  · rw [if_neg hidle]
    exact exec_writeLogged_settled h hs hpersistent (Bool.eq_false_iff.mpr hidle)

theorem ending_of_unlogged (hs : m.Settled) : w.ending m (.ok m) = w.concluded m := by
  rw [ending, settled_concluded hs]

theorem ending_of_refusal (he : e.IsRefusal) : w.ending m (.error e) = (.error e, m) := by
  simp only [ending, he.2, Bool.false_eq_true, if_false]

theorem issued_of_refusal (hlogs : w.logs m = .error e) : w.issued m = .error e := by
  rw [issued, hlogs]
  rfl

theorem issued_of_unlogged (hlogs : w.logs m = .ok false) : w.issued m = .ok m := by
  rw [issued, hlogs]
  rfl

theorem issued_of_logged (hlogs : w.logs m = .ok true) : w.issued m = w.logged m := by
  rw [issued, hlogs]
  rfl

theorem descriptor_isRefusal {array : ArrayRef} {s : Store} {origin : Origin}
    (h : s.descriptor origin array = .error e) : e.IsRefusal := by
  unfold Store.descriptor at h
  rcases hcell : s.cell origin array with e' | cell
  · rw [hcell] at h
    cases h
    exact Store.cell_isRefusal hcell
  · rw [hcell] at h
    cases h

/-- The atomic lane on any array. -/
theorem exec_atomic (h : m.Sound c) (hs : m.Settled) (hlane : w.lane = .atomic) :
    (Memory.writeAtomic w.array w.offset w.bytes).exec m = w.ending m (w.issued m) := by
  have hlogs : w.logs m = (m.store.descriptor .store w.array).map fun d =>
      d.lifetime.isPersistent := by
    rw [logs, hlane]
  rcases hd : m.store.descriptor .store w.array with e | d
  · rw [hd] at hlogs
    rw [issued_of_refusal hlogs, ending_of_refusal (descriptor_isRefusal hd)]
    exact Act.exec_bind_of_error (by rw [Act.exec_query, hd])
  · rw [hd, Except.map] at hlogs
    rcases hp : d.lifetime.isPersistent with _ | _
    · rw [hp] at hlogs
      rw [issued_of_unlogged hlogs, ending_of_unlogged hs, ← exec_writeStore h]
      unfold Memory.writeAtomic
      rw [Act.exec_bind_of_ok (exec_descriptor hd), Act.exec_bind_of_ok (Act.exec_read _ _),
        if_pos (Lifetime.isTransient_of_not_persistent hp)]
    · rw [hp] at hlogs
      rw [issued_of_logged hlogs]
      exact exec_writeAtomic h hs hd hp

/-- The participating lane on any array. -/
theorem exec_participating (h : m.Sound c) (hs : m.Settled) (hlane : w.lane = .participating) :
    (Memory.writeParticipating w.array w.offset w.bytes).exec m = w.ending m (w.issued m) := by
  have hlogs : w.logs m = (m.store.descriptor .store w.array).map fun d =>
      d.lifetime.isPersistent && (!m.transaction.isIdle || d.requiresAtomicWrites) := by
    rw [logs, hlane]
  rcases hd : m.store.descriptor .store w.array with e | d
  · rw [hd] at hlogs
    rw [issued_of_refusal hlogs, ending_of_refusal (descriptor_isRefusal hd)]
    exact Act.exec_bind_of_error (by rw [Act.exec_query, hd])
  · rw [hd, Except.map] at hlogs
    unfold Memory.writeParticipating
    rw [Act.exec_bind_of_ok (exec_descriptor hd), Act.exec_bind_of_ok (Act.exec_read _ _)]
    rcases hp : d.lifetime.isPersistent with _ | _
    · rw [hp, Bool.false_and] at hlogs
      rw [issued_of_unlogged hlogs, ending_of_unlogged hs, ← exec_writeStore h,
        if_pos (Lifetime.isTransient_of_not_persistent hp)]
    · rw [hp, Bool.true_and] at hlogs
      rw [Lifetime.not_transient_of_persistent hp]
      rcases hidle : m.transaction.isIdle with _ | _
      · rw [hidle] at hlogs
        rw [issued_of_logged hlogs]
        exact exec_writeLogged_settled h hs ⟨d, h.store.descriptor_iff.mp hd, hp⟩ hidle
      · rw [hidle, Bool.not_true, Bool.false_or] at hlogs
        rcases hr : d.requiresAtomicWrites with _ | _
        · rw [hr] at hlogs
          rw [issued_of_unlogged hlogs, ending_of_unlogged hs, ← exec_writeStore h]
          rfl
        · rw [hr] at hlogs
          rw [issued_of_logged hlogs]
          exact exec_writeAtomic h hs hd hp

/-- How a write runs, whatever its lane. -/
theorem exec_act (h : m.Sound c) (hs : m.Settled) (w : Write) :
    w.act.exec m = w.ending m (w.issued m) := by
  rcases hlane : w.lane with _ | _ | _ | _
  case atomic =>
    rw [act, hlane]
    exact exec_atomic h hs hlane
  case participating =>
    rw [act, hlane]
    exact exec_participating h hs hlane
  case direct =>
    have hlogs : w.logs m = .ok false := by rw [logs, hlane]
    rw [issued_of_unlogged hlogs, ending_of_unlogged hs, ← exec_writeStore h, act, hlane]
    rfl
  case unconditional =>
    have hlogs : w.logs m = .ok false := by rw [logs, hlane]
    rw [issued_of_unlogged hlogs, ending_of_unlogged hs, ← exec_writeStore h, act, hlane]
    unfold Memory.writeUnconditional
    rw [Act.exec_bind_of_ok (Act.exec_read _ _)]
    split
    · exact Act.exec_bind_of_ok (Act.exec_pure _ _)
    · exact Act.exec_bind_of_ok (Act.exec_note _ _)

/-! ## What a write leaves behind -/

theorem isPersistent_of_logs (h : m.Sound c) (hlogs : w.logs m = .ok true) :
    m.store.IsPersistent w.array := by
  have hlookup (f : Descriptor → Bool) (hf : ∀ d, f d = true → d.lifetime.isPersistent = true)
      (hmap : (m.store.descriptor .store w.array).map f = .ok true) :
      m.store.IsPersistent w.array := by
    rcases hd : m.store.descriptor .store w.array with e | d
    · rw [hd] at hmap
      cases hmap
    · rw [hd, Except.map, Except.ok.injEq] at hmap
      exact ⟨d, h.store.descriptor_iff.mp hd, hf d hmap⟩
  unfold logs at hlogs
  split at hlogs
  · exact hlookup _ (fun _ hd => hd) hlogs
  · exact hlookup _ (fun _ hd => (Bool.and_eq_true_iff.mp hd).1) hlogs
  · cases hlogs
  · cases hlogs

/-- A write is issued either as it is or with an entry. -/
theorem issued_cases (h : w.issued m = .ok m') :
    (w.logs m = .ok false ∧ m' = m) ∨ (w.logs m = .ok true ∧ w.logged m = .ok m') := by
  rcases hlogs : w.logs m with e | _ | _
  · rw [issued_of_refusal hlogs] at h
    cases h
  · rw [issued_of_unlogged hlogs, Except.ok.injEq] at h
    exact .inl ⟨rfl, h.symm⟩
  · rw [issued_of_logged hlogs] at h
    exact .inr ⟨rfl, h⟩

/-- A write in an open transaction is issued in the same transaction. -/
theorem state_issued (hopen : m.transaction.isIdle = false) (hm : w.issued m = .ok m') :
    m'.transaction.state = m.transaction.state := by
  rcases issued_cases hm with ⟨_, rfl⟩ | ⟨_, hlogged⟩
  · rfl
  · obtain ⟨_, _, _, hstate, _⟩ := entries_logged hlogged
    rw [hstate, Transaction.opened, hopen]
    rfl

theorem isIdle_issued (hopen : m.transaction.isIdle = false) (hm : w.issued m = .ok m') :
    m'.transaction.isIdle = false := by
  rw [Transaction.isIdle, state_issued hopen hm]
  exact hopen

theorem settled_issued (hs : m.Settled) (hopen : m.transaction.isIdle = false)
    (hm : w.issued m = .ok m') : m'.Settled := by
  unfold Memory.Settled
  rw [state_issued hopen hm]
  exact hs

theorem sound_issued (h : m.Sound c) (hm : w.issued m = .ok m') : m'.Sound c := by
  rcases issued_cases hm with ⟨_, rfl⟩ | ⟨hlogs, hlogged⟩
  · exact h
  · exact sound_logged h (isPersistent_of_logs h hlogs) hlogged

theorem sound_settled (h : m.Sound c) : m.settled.Sound c := by
  unfold Memory.settled
  split
  · rw [h.close_eq]
    exact .ofStore h.store
  · exact h

theorem settled_settled (m : Memory) : m.settled.Settled := by
  unfold Memory.settled
  split
  · exact Memory.settled_of_idle rfl
  next h => exact h

theorem sound_concluded (h : m.Sound c) : (w.concluded m).2.Sound c := by
  unfold Write.concluded
  split
  · exact sound_stored h
  · dsimp only
    split
    · exact (sound_stored h).recovered
    · exact sound_stored h

theorem sound_act (h : m.Sound c) (hs : m.Settled) : (w.act.exec m).2.Sound c := by
  rw [exec_act h hs]
  rcases hm' : w.issued m with e | m'
  · unfold ending
    dsimp only
    split
    · exact h.rolledBack
    · exact h
  · exact sound_settled (sound_concluded (sound_issued h hm'))

theorem settled_act (h : m.Sound c) (hs : m.Settled) : (w.act.exec m).2.Settled := by
  rw [exec_act h hs]
  rcases w.issued m with e | m'
  · unfold ending
    dsimp only
    split
    · exact Memory.settled_of_idle rfl
    · exact hs
  · exact settled_settled _

end Write

end SmartCard
