-- SUMMARY: A logged write outside any transaction is all or nothing, whatever tear is armed.
import SmartCard.Proofs.Memory.Writes

/-!
# All or nothing

A write that keeps an undo entry while no transaction is open runs in a transaction of its own. It
writes all its bytes (`Store.Overwritten`), or leaves the memory as it was, or loses power and then
leaves the persistent arrays as they were (`Memory.LostPower`). `Write.allOrNothing` says that there
is no fourth way.
-/

namespace SmartCard

/-- Bytes were written into an array, and nothing else changed in any array. -/
structure Store.Overwritten (array : ArrayRef) (offset : Nat) (bytes : List UInt8) (s s' : Store) :
    Prop where
  descriptor : s'.descriptor? = s.descriptor?
  byte : ∀ other i, s'.byte? other i =
    if array = other ∧ offset ≤ i ∧ i < offset + bytes.length then bytes[i - offset]?
    else s.byte? other i

/-- What a loss of power does that costs no persistent byte. -/
structure Memory.LostPower (m m' : Memory) : Prop where
  descriptor : m'.store.descriptor? = m.store.descriptor?
  persistent : ∀ {array}, m.store.IsPersistent array →
    ∀ i, m'.store.byte? array i = m.store.byte? array i
  transient : ∀ {array d}, m.store.descriptor? array = some d → d.lifetime.isTransient = true →
    ∀ {i b}, m'.store.byte? array i = some b → b = 0
  disarmed : m'.store.tear = none

/-- The ways in which an all-or-nothing write can end. -/
inductive Memory.AllOrNothing (array : ArrayRef) (offset : Nat) (bytes : List UInt8) (m : Memory) :
    Except Fault Unit × Memory → Prop where
  | whole {m' : Memory} :
      Store.Overwritten array offset bytes m.store m'.store →
      AllOrNothing array offset bytes m (.ok (), m')
  | refused {e : Fault} : e.isPowerLoss = false → AllOrNothing array offset bytes m (.error e, m)
  | lost {e : Fault} {m' : Memory} :
      e.isPowerLoss = true → m.LostPower m' → AllOrNothing array offset bytes m (.error e, m')

variable {c : Config} {m m' : Memory} {w : Write} {e : Fault}

/-- Clearing zeroes what is transient. -/
theorem Store.eq_zero_of_clearTransients {s : Store} {array : ArrayRef} {d : Descriptor}
    (hd : s.descriptor? array = some d) (ht : d.lifetime.isTransient = true) {i : Nat} {b : UInt8}
    (hb : (s.clearTransients fun _ => true).byte? array i = some b) : b = 0 := by
  obtain ⟨cell, hfound, rfl⟩ := Table.descriptor?_eq_some_iff.mp hd
  have hcleared : Store.cleared (fun _ => true) cell = cell.clear := by
    rw [Store.cleared, ht, Bool.and_self, if_pos rfl]
  rw [Store.byte?, Store.find?_clearTransients, hfound, Option.map_some, Option.bind_some, hcleared,
    Cell.clear_payload] at hb
  exact List.eq_of_mem_replicate (List.mem_of_getElem? hb)

namespace Write

/-- Writing nothing is writing all. -/
theorem overwritten_nil (array : ArrayRef) (offset : Nat) (s : Store) :
    Store.Overwritten array offset [] s s where
  descriptor := rfl
  byte := by
    intro other i
    rw [List.length_nil, Nat.add_zero, if_neg fun h => Nat.not_lt.mpr h.2.1 h.2.2]

theorem overwritten_stored (hm : w.answer m = .ok ()) :
    Store.Overwritten w.array w.offset w.bytes m.store (w.stored m).store := by
  have hw := w.written m
  rw [hm] at hw
  generalize (w.stored m).store = s at hw
  cases hw with
  | whole hs _ =>
    refine ⟨?_, ?_⟩
    · have hd := Store.descriptor?_restoreBytes hs
      exact hd
    · have hb := Store.byte?_restoreBytes hs
      exact hb

/-- A before-image that is not kept is no loss of power. -/
theorem isPowerLoss_of_logged (h : w.logged m = .error e) : e.isPowerLoss = false := by
  unfold logged at h
  rcases hread : m.store.read w.array w.offset w.bytes.length with e' | before
  · rw [hread] at h
    cases h
    exact (Store.read_isRefusal hread).1
  · rw [hread] at h
    change (m.transaction.opened.logBefore? ⟨w.array, w.offset, before⟩ >>= fun t => _) = _ at h
    unfold Transaction.logBefore? at h
    split at h
    · cases h
    · cases h
      rfl

/-- When the only entry is that of a write, undoing it brings back what the write overwrote. -/
theorem byte?_undone_stored (h : m'.Sound c) {before : List UInt8} (hstore : m'.store = m.store)
    (hread : m.store.read w.array w.offset w.bytes.length = .ok before)
    (hentries : m'.transaction.log.entries = [⟨w.array, w.offset, before⟩]) (array : ArrayRef)
    (i : Nat) :
    (w.stored m').undone.byte? array i = m.store.byte? array i := by
  have hundone := (sound_stored (w := w) h).byte?_undone array i
  have hstored : (w.stored m').transaction = m'.transaction := rfl
  have hlength := Store.length_of_read hread
  rw [hundone, hstored, hentries]
  let entry : UndoEntry := ⟨w.array, w.offset, before⟩
  by_cases hcovers : entry.Covers array i
  · rw [UndoLog.kept?_of_covers hcovers]
    obtain ⟨rfl, hlow, hhigh⟩ := hcovers
    have hkept : before[i - w.offset]? = m.store.byte? w.array i :=
      Store.getElem?_of_read hread hlow (hlength ▸ hhigh)
    have hsome : (before[i - w.offset]?).isSome :=
      UndoEntry.Covers.isSome (e := entry) ⟨rfl, hlow, hhigh⟩
    rw [UndoLog.kept?, Option.none_or, Option.or_of_isSome hsome]
    exact hkept
  · rw [UndoLog.kept?_of_not_covers hcovers, UndoLog.kept?, Option.none_or, ← hstore]
    refine Store.byte?_write_of_outside ?_ m'.store
    rw [← hlength]
    exact hcovers

/-- A tear that strikes a logged write costs no persistent byte. -/
theorem lostPower_recovered (h : m.Sound c) (hidle : m.transaction.isIdle = true)
    (hp : m.store.IsPersistent w.array) (hm : w.logged m = .ok m') :
    m.LostPower (w.stored m').recovered := by
  obtain ⟨before, hread, hstore, _, hentries⟩ := entries_logged hm
  rw [h.entries_of_idle hidle] at hentries
  have hsound := sound_logged h hp hm
  have hstored := sound_stored (w := w) hsound
  have hdescriptor : (w.stored m').store.descriptor? = m.store.descriptor? := by
    rw [← hstore]
    exact Store.descriptor?_write w.array w.offset w.bytes m'.store
  have hundone : (w.stored m').undone.descriptor? = m.store.descriptor? :=
    hstored.descriptor?_undone.trans hdescriptor
  refine ⟨?_, ?_, ?_, rfl⟩
  · rw [← hundone]
    exact Store.descriptor?_clearTransients { (w.stored m').undone with tear := none } fun _ => true
  · intro array hpersistent i
    rw [hstored.byte?_recovered (by
      unfold Store.IsPersistent
      rw [hdescriptor]
      exact hpersistent)]
    exact byte?_undone_stored hsound hstore hread hentries array i
  · intro array d hd ht i b hb
    rw [← hundone] at hd
    exact Store.eq_zero_of_clearTransients
      (s := { (w.stored m').undone with tear := none }) hd ht hb

theorem store_settled (m : Memory) : m.settled.store = m.store := by
  unfold Memory.settled
  split <;> rfl

theorem isIdle_settled (h : m.transaction.state ≠ .explicit) :
    m.settled.transaction.isIdle = true := by
  unfold Memory.settled
  split
  next => rfl
  next himplicit =>
    unfold Transaction.isIdle
    rcases hstate : m.transaction.state with _ | _ | _
    · rfl
    · exact absurd hstate h
    · exact absurd hstate himplicit

/-- A write that finds no transaction open leaves none open. -/
theorem isIdle_act (h : m.Sound c) (hidle : m.transaction.isIdle = true) (w : Write) :
    (w.act.exec m).2.transaction.isIdle = true := by
  have hnone : m.transaction.state = .idle := beq_iff_eq.mp hidle
  rw [exec_act h (Memory.settled_of_idle hidle)]
  rcases hm : w.issued m with e | m'
  · rw [ending, h.rolledBack_of_idle hidle, ite_self]
    exact hidle
  · have hstate : m'.transaction.state ≠ .explicit := by
      rcases issued_cases hm with ⟨_, rfl⟩ | ⟨_, hlogged⟩
      · rw [hnone]
        decide
      · rw [implicit_logged hidle hlogged]
        decide
    rw [ending]
    apply isIdle_settled
    unfold concluded
    rcases w.answer m' with e | _
    · dsimp only
      split
      · intro hrecovered
        cases hrecovered
      · exact hstate
    · exact hstate

/-- A logged write that finds no transaction open is all or nothing. -/
theorem allOrNothing (h : m.Sound c) (hidle : m.transaction.isIdle = true)
    (hlogs : w.logs m = .ok true) :
    Memory.AllOrNothing w.array w.offset w.bytes m (w.act.exec m) := by
  have hp := isPersistent_of_logs h hlogs
  rw [exec_act h (Memory.settled_of_idle hidle), issued_of_logged hlogs]
  rcases hm : w.logged m with e | m'
  · rw [ending, h.rolledBack_of_idle hidle, ite_self]
    exact .refused (isPowerLoss_of_logged hm)
  · obtain ⟨before, hread, hstore, _⟩ := entries_logged hm
    rcases hanswer : w.answer m' with e | _
    · rw [← hstore] at hread
      have hloss := isPowerLoss_of_read hread hanswer
      have hconcluded : w.concluded m' = (.error e, (w.stored m').recovered) := by
        unfold concluded
        rw [hanswer]
        simp only [hloss, if_true]
      rw [ending, hconcluded, settled_eq (Memory.settled_of_idle rfl)]
      exact .lost hloss (lostPower_recovered h hidle hp hm)
    · have hconcluded : w.concluded m' = (.ok (), w.stored m') := by
        unfold concluded
        rw [hanswer]
      rw [ending, hconcluded]
      refine .whole ?_
      rw [store_settled, ← hstore]
      exact overwritten_stored hanswer

end Write

end SmartCard
