-- SUMMARY: What tears can make of arrays that are never written without an undo entry.
import SmartCard.Proofs.Memory.Alongside
import SmartCard.Proofs.Memory.Seals
import SmartCard.Proofs.Memory.Undoable

/-!
# Tears

Persistent integrity-sensitive arrays are written with an undo entry or not at all
(`Operation.Guards`). So no tear can split such an array: after an operation its payload is the one
from before, or the one that comes out when no tear is ahead, or what a rollback of the open
transaction brings back (`Memory.Unsplit`). What that is does not change while the transaction is
open.
-/

namespace SmartCard

variable {c : Config} {m m' m'' whole : Memory} {array : ArrayRef} {d : Descriptor}

namespace Memory

/-- The same memory with no tear ahead. -/
def untorn (m : Memory) : Memory := { m with store := { m.store with tear := none } }

/-- What may become of the payload of an array on the way from a memory `m` to `m'`: it stays as it
was, or comes out as in `whole`, or a rollback of the open transaction brings it back. -/
inductive Unsplit (array : ArrayRef) (m m' whole : Memory) : Prop where
  | kept : m'.store.payload? array = m.store.payload? array → Unsplit array m m' whole
  | whole : m'.store.payload? array = whole.store.payload? array → Unsplit array m m' whole
  | rolledBack :
      m.transaction.isIdle = false → m'.transaction.isIdle = true →
      m'.store.payload? array = m.undone.payload? array → Unsplit array m m' whole

theorem Sound.untorn (h : m.Sound c) : m.untorn.Sound c := h.withStore (h.store.withTear none) id

/-- A memory at rest in which the array is as a rollback leaves it. -/
theorem Sound.unsplit_of_undone (h : m.Sound c) (hidle : m'.transaction.isIdle = true)
    (hpayload : m'.store.payload? array = m.undone.payload? array) :
    Unsplit array m m' whole := by
  rcases hnow : m.transaction.isIdle with _ | _
  · exact .rolledBack hnow hidle hpayload
  · rw [Operation.undone_of_idle h hnow] at hpayload
    exact .kept hpayload

/-- Nothing has happened yet that concerns the array. -/
theorem Unsplit.of_same (h : Unsplit array m' m'' whole)
    (hpayload : m'.store.payload? array = m.store.payload? array)
    (hundone : m'.undone.payload? array = m.undone.payload? array)
    (htransaction : m'.transaction = m.transaction) : Unsplit array m m'' whole := by
  cases h with
  | kept hkept => exact .kept (hkept.trans hpayload)
  | whole hwhole => exact .whole hwhole
  | rolledBack hopen hidle hback =>
    rw [htransaction] at hopen
    exact .rolledBack hopen hidle (hback.trans hundone)

end Memory

/-- Arrays that are to be written whole are persistent. -/
theorem Store.isPersistent_of_atomic {s : Store} (hd : s.descriptor? array = some d)
    (hatomic : d.requiresAtomicWrites = true) : s.IsPersistent array :=
  ⟨d, hd, (Bool.and_eq_true_iff.mp hatomic).2⟩

theorem Store.payload?_clearTransients {s : Store} (hp : s.IsPersistent array)
    (ends : Lifetime → Bool) : (s.clearTransients ends).payload? array = s.payload? array :=
  payload?_eq_of_byte? (congrFun (descriptor?_clearTransients s ends) array)
    fun i => byte?_clearTransients hp ends i

/-- Whether an operation flips no bits and leaves the arrays that are to be written whole to writes
with an undo entry. -/
def Operation.Guards (m : Memory) : Operation → Prop
  | .write w => ∀ d, m.store.descriptor? w.array = some d → d.requiresAtomicWrites = true →
    w.logs m = .ok true
  | .flip .. => False
  | _ => True

/-! ## Writes -/

namespace Write

variable {w : Write}

theorem logs_untorn (w : Write) (m : Memory) : w.logs m.untorn = w.logs m := rfl

/-- Whether and how a write is issued has nothing to do with the tear. -/
theorem issued_untorn (w : Write) (m : Memory) :
    w.issued m.untorn = (w.issued m).map Memory.untorn := by
  rcases hlogs : w.logs m with e | _ | _
  · rw [issued_of_refusal hlogs, issued_of_refusal ((logs_untorn w m).trans hlogs)]
    rfl
  · rw [issued_of_unlogged hlogs, issued_of_unlogged ((logs_untorn w m).trans hlogs)]
    rfl
  · rw [issued_of_logged hlogs, issued_of_logged ((logs_untorn w m).trans hlogs)]
    unfold logged
    show (m.store.read w.array w.offset w.bytes.length >>= _) = _
    rcases m.store.read w.array w.offset w.bytes.length with _ | before
    · rfl
    · show ((m.transaction.opened.logBefore? ⟨w.array, w.offset, before⟩) >>= _) = Except.map _
        ((m.transaction.opened.logBefore? ⟨w.array, w.offset, before⟩) >>= _)
      rcases m.transaction.opened.logBefore? ⟨w.array, w.offset, before⟩ <;> rfl

/-- A write that is not torn ends as it does with no tear ahead. -/
theorem table_concluded_untorn (hanswer : w.answer m = .ok ()) :
    (w.concluded m.untorn).2.store.table = (w.concluded m).2.store.table := by
  have hwritten := w.written m
  rw [hanswer] at hwritten
  rw [concluded_of_untorn rfl, concluded, hanswer]
  dsimp only
  generalize (w.stored m).store = s at hwritten ⊢
  cases hwritten with
  | @whole s' hs _ =>
    have huntorn : m.untorn.store.restoreBytes w.array w.offset w.bytes =
        .ok { s' with tear := none } := by
      unfold Memory.untorn
      rw [Store.restoreBytes_withTear, hs]
      rfl
    rw [huntorn]

/-- While a write is with the store, a rollback would leave the payload that it would have left
before. -/
theorem payload?_undone_stored (h : m.Sound c) (hguards : Operation.Guards m (.write w))
    (hd : m.store.descriptor? array = some d) (hatomic : d.requiresAtomicWrites = true)
    (hissued : w.issued m = .ok m') :
    (w.stored m').undone.payload? array = m.undone.payload? array := by
  have hsound := sound_stored (w := w) (sound_issued h hissued)
  refine Store.payload?_eq_of_byte? ?_ fun i => ?_
  · rw [hsound.descriptor?_undone, h.descriptor?_undone, ← store_issued hissued]
    exact congrFun (Store.descriptor?_write _ _ _ _) array
  · rcases issued_cases hissued with ⟨hlogs, rfl⟩ | ⟨hlogs, hlogged⟩
    · have hne : w.array ≠ array := by
        rintro rfl
        rw [hguards d hd hatomic] at hlogs
        cases hlogs
      rw [hsound.byte?_undone, h.byte?_undone]
      congr 1
      exact Store.byte?_write_of_ne hne _ _ _ i
    · exact (UndoneAlike.of_logged h (isPersistent_of_logs h hlogs) hlogged).old
        (Store.isPersistent_of_atomic hd hatomic) i

/-- A write does not split what is to be written whole. -/
theorem unsplit_act (h : m.Sound c) (hs : m.Settled) (hguards : Operation.Guards m (.write w))
    (hd : m.store.descriptor? array = some d) (hatomic : d.requiresAtomicWrites = true) :
    Memory.Unsplit array m (w.act.exec m).2 (w.act.exec m.untorn).2 := by
  rw [exec_act h hs, exec_act h.untorn hs, issued_untorn]
  rcases hissued : w.issued m with e | m'
  · rw [ending]
    dsimp only
    split
    · exact h.unsplit_of_undone rfl rfl
    · exact .kept rfl
  · have hsound := sound_stored (w := w) (sound_issued h hissued)
    have hundone := payload?_undone_stored h hguards hd hatomic hissued
    have hd' : (w.stored m').store.descriptor? array = some d := by
      rw [← hd, ← store_issued hissued]
      exact congrFun (Store.descriptor?_write _ _ _ _) array
    have hwritten := w.written m'
    rw [Except.map, ending, ending]
    dsimp only
    rcases hanswer : w.answer m' with e | _
    · rw [hanswer] at hwritten
      have hconcluded : (w.concluded m').2 =
          if e.isPowerLoss then (w.stored m').recovered else w.stored m' := by
        rw [concluded, hanswer]
      rw [hconcluded]
      split
      · -- Torn: the recovery rolls back, and clears only transient arrays.
        rw [settled_eq (Memory.settled_of_idle rfl)]
        refine h.unsplit_of_undone rfl ?_
        rw [← hundone]
        refine Store.payload?_clearTransients ?_ _
        refine Store.isPersistent_of_atomic ?_ hatomic
        exact (congrFun hsound.descriptor?_undone array).trans hd'
      next hrefused =>
        refine .kept ?_
        rw [store_settled, ← store_issued hissued]
        generalize (w.stored m').store = s at hwritten ⊢
        cases hwritten with
        | torn => exact absurd rfl hrefused
        | refused => rfl
    · refine .whole ?_
      unfold Store.payload?
      rw [store_settled, store_settled, table_concluded_untorn hanswer]

end Write

/-! ## Operations -/

namespace Operation

variable {op : Operation}

theorem allocate_untorn (m : Memory) (d : Descriptor) :
    m.untorn.store.allocate d =
      (m.store.allocate d).map fun r => (r.1, { r.2 with tear := none }) := by
  have hfree : m.untorn.store.freeRef = m.store.freeRef := rfl
  have hpools : m.untorn.store.pools = m.store.pools := rfl
  unfold Store.allocate
  rw [hfree, hpools]
  split
  · rfl
  · rcases m.store.freeRef with _ | _
    · rfl
    · dsimp only
      split <;> rfl

theorem exec_allocate_untorn (d : Descriptor) (m : Memory) :
    (act (.allocate d)).exec m.untorn =
      (((act (.allocate d)).exec m).1, ((act (.allocate d)).exec m).2.untorn) := by
  rw [exec_allocate, exec_allocate, allocate_untorn]
  rcases m.store.allocate d with _ | ⟨_, _⟩ <;> rfl

theorem table_flip_untorn (flipped : ArrayRef) (byte : Nat) (mask : UInt8) (m : Memory) :
    ((act (.flip flipped byte mask)).exec m.untorn).2.store.table =
      ((act (.flip flipped byte mask)).exec m).2.store.table := by
  have hcell : m.untorn.store.cell = m.store.cell := rfl
  rw [exec_flip, exec_flip]
  unfold Store.flipBits
  rw [hcell]
  rcases m.store.cell .store flipped with _ | cell
  · rfl
  · simp only [Except.bind]
    rcases cell.flip? byte mask with _ | _ <;> rfl

/-- No operation splits what is to be written whole. -/
theorem unsplit_act (h : m.Sound c) (hs : m.Settled) (hguards : op.Guards m)
    (hd' : (op.act.exec m).2.store.descriptor? array = some d)
    (hatomic : d.requiresAtomicWrites = true) :
    Memory.Unsplit array m (op.act.exec m).2 (op.act.exec m.untorn).2 := by
  by_cases hallocates : ∃ d, op = .allocate d
  · obtain ⟨new, rfl⟩ := hallocates
    rw [exec_allocate_untorn]
    exact .whole rfl
  · rw [descriptor?_act h hs fun new heq => hallocates ⟨new, heq⟩] at hd'
    have hp := Store.isPersistent_of_atomic hd' hatomic
    cases op with
    | write w => exact Write.unsplit_act h hs hguards hd' hatomic
    | begin =>
      rw [act, Memory.exec_begin]
      split <;> exact .kept rfl
    | commit =>
      rw [act, Memory.exec_commit]
      split <;> exact .kept rfl
    | abort =>
      rw [act, h.exec_abort]
      split
      · exact .kept rfl
      · exact h.unsplit_of_undone rfl rfl
    | allocate new => exact absurd ⟨new, rfl⟩ hallocates
    | reset =>
      rw [exec_reset h]
      refine h.unsplit_of_undone rfl (Store.payload?_clearTransients ?_ _)
      exact Store.isPersistent_of_atomic ((congrFun h.descriptor?_undone array).trans hd') hatomic
    | deselect =>
      rw [exec_deselect]
      exact .kept (Store.payload?_clearTransients hp _)
    | arm bytes => exact .kept rfl
    | flip => exact hguards.elim

/-- Only beginning a transaction opens one. -/
theorem eq_begin_of_opens (h : m.Sound c) (hidle : m.transaction.isIdle = true)
    (hopen : (op.act.exec m).2.transaction.isIdle = false) : op = .begin := by
  have hstays : (op.act.exec m).2.transaction.isIdle = true → op = .begin := fun hidle' => by
    rw [hidle'] at hopen
    cases hopen
  cases op with
  | begin => rfl
  | write w => exact hstays (Write.isIdle_act h hidle w)
  | commit =>
    refine hstays ?_
    rw [act, Memory.exec_commit, if_pos hidle]
    exact hidle
  | abort =>
    refine hstays ?_
    rw [act, h.exec_abort, if_pos hidle]
    exact hidle
  | allocate d =>
    refine hstays ?_
    rw [transaction_allocate]
    exact hidle
  | reset =>
    refine hstays ?_
    rw [exec_reset h]
    rfl
  | deselect => exact hstays hidle
  | arm bytes => exact hstays hidle
  | flip flipped byte mask =>
    refine hstays ?_
    rw [transaction_flip]
    exact hidle

theorem undone_begin (h : m.Sound c) (hidle : m.transaction.isIdle = true) :
    ((act .begin).exec m).2.undone = m.undone := by
  rw [undone_of_idle h hidle, act, Memory.exec_begin, if_pos hidle]
  unfold Memory.undone
  dsimp only
  show Store.undone m.store m.transaction.log.entries = m.store
  rw [h.entries_of_idle hidle, Store.undone_nil]

/-- While a transaction is open, a rollback would go on leaving the same payload. -/
theorem payload?_undone_act (h : m.Sound c) (hs : m.Settled) (hguards : op.Guards m)
    (hd : m.store.descriptor? array = some d) (hatomic : d.requiresAtomicWrites = true)
    (hopen : (op.act.exec m).2.transaction.isIdle = false) :
    (op.act.exec m).2.undone.payload? array = m.undone.payload? array := by
  rcases hnow : m.transaction.isIdle with _ | _
  · have hcommit := ne_commit_of_open hnow hopen
    rcases act_of_open h hs hnow hcommit with ⟨_, hreached⟩ | ⟨hclosed, _⟩
    · rw [hreached]
      by_cases hwrites : ∃ w, op = .write w
      · obtain ⟨w, rfl⟩ := hwrites
        rcases hissued : w.issued m with e | m'
        · rw [reached_of_refused hissued]
        · rw [reached_of_issued hissued]
          exact Write.payload?_undone_stored h hguards hd hatomic hissued
      · have hundoable : op.Undoable m := by
          cases op with
          | write w => exact absurd ⟨w, rfl⟩ hwrites
          | flip => exact hguards.elim
          | _ => trivial
        have halike := UndoneAlike.reached h hnow hcommit hundoable
        refine Store.payload?_eq_of_byte? ?_
          (halike.old (Store.isPersistent_of_atomic hd hatomic))
        rw [(sound_reached h hs op).descriptor?_undone, h.descriptor?_undone, hd]
        exact halike.descriptor hd
    · rw [hclosed] at hopen
      cases hopen
  · obtain rfl := eq_begin_of_opens h hnow hopen
    rw [undone_begin h hnow]

/-- A rollback would leave a new array zeroed. -/
theorem payload?_undone_new (h : m.Sound c) (hs : m.Settled)
    (habsent : m.store.descriptor? array = none)
    (hd : (op.act.exec m).2.store.descriptor? array = some d) :
    (op.act.exec m).2.undone.payload? array = some (List.replicate d.byteLength 0) := by
  by_cases hallocates : ∃ d, op = .allocate d
  · obtain ⟨new, rfl⟩ := hallocates
    have hsound := sound_act h hs (.allocate new)
    have htransaction := transaction_allocate new m
    have hunlogged : ¬((act (.allocate new)).exec m).2.Logs array := by
      rintro ⟨e, he, rfl⟩
      rw [htransaction] at he
      obtain ⟨_, hd', _⟩ := h.entries he
      rw [habsent] at hd'
      cases hd'
    have hkept := (hsound.resealed_undone array).kept hunlogged
    unfold Store.payload?
    rw [hkept]
    rw [exec_allocate] at hd ⊢
    rcases hs' : m.store.allocate new with _ | ⟨fresh, s⟩
    · rw [hs', habsent] at hd
      cases hd
    · rw [hs'] at hd
      dsimp only at hd ⊢
      obtain ⟨_, _, _, rfl⟩ := h.store.allocate_eq_ok_iff.mp hs'
      rw [h.store.descriptor?_allocate hs'] at hd
      split at hd
      next heq =>
        cases hd
        dsimp only
        rw [Table.find?_insert, if_pos heq, Option.map_some, Cell.zeroed_payload]
      next =>
        rw [habsent] at hd
        cases hd
  · rw [descriptor?_act h hs fun new heq => hallocates ⟨new, heq⟩, habsent] at hd
    cases hd

/-! ## Requests -/

/-- Lists of operations that split no array that is to be written whole: at most one operation that
guards them, or the making of an array that may be written in parts, with its first write. -/
inductive Guarded (m : Memory) : List Operation → Prop where
  | nothing : Guarded m []
  | one {op : Operation} : op.Guards m → Guarded m [op]
  | enrolment {d : Descriptor} {w : Write} :
      m.store.freeRef = .ok w.array → d.requiresAtomicWrites = false →
      Guarded m [.allocate d, .write w]

/-- When a new array is made and written, the arrays that are to be written whole are old ones, and
the first of the two steps does not concern them. -/
theorem enrolment_cases (h : m.Sound c) (hs : m.Settled) {new : Descriptor} {w : Write}
    (hfree : m.store.freeRef = .ok w.array) (hparts : new.requiresAtomicWrites = false)
    (hd' : (run m [.allocate new, .write w]).2.store.descriptor? array = some d)
    (hatomic : d.requiresAtomicWrites = true) :
    m.store.descriptor? array = some d ∧
      ((∃ e, (act (.allocate new)).exec m = (.error e, m)) ∨
        ∃ m₁, (act (.allocate new)).exec m = (.ok (), m₁) ∧ m₁.Sound c ∧ m₁.Settled ∧
          (Operation.write w).Guards m₁ ∧ m₁.store.descriptor? array = some d ∧
          m₁.transaction = m.transaction ∧ m₁.store.payload? array = m.store.payload? array ∧
          m₁.undone.payload? array = m.undone.payload? array) := by
  rw [run] at hd'
  rcases hallocate : m.store.allocate new with e | ⟨fresh, s⟩
  · have hexec : (act (.allocate new)).exec m = (.error e, m) := by rw [exec_allocate, hallocate]
    rw [hexec] at hd' ⊢
    exact ⟨hd', .inl ⟨e, rfl⟩⟩
  · have hexec : (act (.allocate new)).exec m = (.ok (), { m with store := s }) := by
      rw [exec_allocate, hallocate]
    have hsound := sound_allocate h hallocate
    have hdescriptor := h.store.descriptor?_allocate hallocate
    have hfresh : w.array = fresh := by
      rw [Store.freeRef_of_allocate hallocate, Except.ok.injEq] at hfree
      exact hfree.symm
    rw [hexec] at hd' ⊢
    dsimp only at hd'
    rw [run_singleton, act, Write.descriptor?_act hsound hs] at hd'
    have hne : array ≠ fresh := by
      rintro rfl
      dsimp only at hd'
      rw [hdescriptor, if_pos rfl] at hd'
      cases hd'
      rw [hparts] at hatomic
      cases hatomic
    have hd : m.store.descriptor? array = some d := by
      dsimp only at hd'
      rw [hdescriptor, if_neg hne] at hd'
      exact hd'
    have hp := Store.isPersistent_of_atomic hd hatomic
    refine ⟨hd, .inr ⟨_, rfl, hsound, hs, ?_, hd', rfl, ?_, ?_⟩⟩
    · intro d' hd' hatomic'
      dsimp only at hd'
      rw [hdescriptor, if_pos hfresh] at hd'
      cases hd'
      rw [hparts] at hatomic'
      cases hatomic'
    · refine Store.payload?_eq_of_byte? (hd'.trans hd.symm) fun i => ?_
      dsimp only
      rw [h.store.byte?_allocate hallocate, if_neg hne]
    · refine Store.payload?_eq_of_byte? ?_ ((UndoneAlike.of_allocate h hallocate).old hp)
      rw [hsound.descriptor?_undone, h.descriptor?_undone]
      exact hd'.trans hd.symm

namespace Guarded

variable {ops : List Operation}

/-- Guarded operations split nothing. -/
theorem unsplit_run (hguarded : Guarded m ops) (h : m.Sound c) (hs : m.Settled)
    (hd' : (run m ops).2.store.descriptor? array = some d)
    (hatomic : d.requiresAtomicWrites = true) :
    Memory.Unsplit array m (run m ops).2 (run m.untorn ops).2 := by
  cases hguarded with
  | nothing => exact .kept rfl
  | one hguards =>
    rw [run_singleton] at hd' ⊢
    rw [run_singleton]
    exact unsplit_act h hs hguards hd' hatomic
  | enrolment hfree hparts =>
    obtain ⟨_, ⟨e, hexec⟩ | ⟨m₁, hexec, hsound, hsettled, hguards, hd₁, htransaction, hpayload,
      hundone⟩⟩ := enrolment_cases h hs hfree hparts hd' hatomic
    · rw [run, hexec]
      exact .kept rfl
    · rw [run, run, exec_allocate_untorn, hexec]
      dsimp only
      rw [run_singleton, run_singleton]
      exact (Write.unsplit_act hsound hsettled hguards hd₁ hatomic).of_same hpayload hundone
        htransaction

/-- While guarded operations leave a transaction open, a rollback would go on leaving the same
payload, and zeroes for a new array. -/
theorem undone_run (hguarded : Guarded m ops) (h : m.Sound c) (hs : m.Settled)
    (hd' : (run m ops).2.store.descriptor? array = some d)
    (hatomic : d.requiresAtomicWrites = true)
    (hopen : (run m ops).2.transaction.isIdle = false) :
    (m.store.descriptor? array = some d ∧
      (run m ops).2.undone.payload? array = m.undone.payload? array) ∨
    (m.store.descriptor? array = none ∧
      (run m ops).2.undone.payload? array = some (List.replicate d.byteLength 0)) := by
  cases hguarded with
  | nothing => exact .inl ⟨hd', rfl⟩
  | @one op hguards =>
    rw [run_singleton] at hd' hopen ⊢
    rcases hd : m.store.descriptor? array with _ | old
    · exact .inr ⟨rfl, payload?_undone_new h hs hd hd'⟩
    · have hsame := keeps_act h hs op array old hd
      rw [hd', Option.some.injEq] at hsame
      subst hsame
      exact .inl ⟨rfl, payload?_undone_act h hs hguards hd hatomic hopen⟩
  | enrolment hfree hparts =>
    obtain ⟨hd, ⟨e, hexec⟩ | ⟨m₁, hexec, hsound, hsettled, hguards, hd₁, htransaction, hpayload,
      hundone⟩⟩ := enrolment_cases h hs hfree hparts hd' hatomic
    · rw [run, hexec]
      exact .inl ⟨hd, rfl⟩
    · rw [run, hexec] at hopen ⊢
      dsimp only at hopen ⊢
      rw [run_singleton] at hopen ⊢
      exact .inl ⟨hd, (payload?_undone_act hsound hsettled hguards hd₁ hatomic hopen).trans hundone⟩

end Guarded

end Operation

end SmartCard
