-- SUMMARY: Writes that lie within their array end in three ways only: done, torn, or out of commit buffer.
import SmartCard.Proofs.Memory.Writes

/-!
# Writes in range

The checks of a command make sure that what it writes lies within the array. Such a write is never
refused: it is done, or power is lost on the way, or its before-image finds no room in the commit
buffer (`Write.Ended`).
-/

namespace SmartCard

variable {c : Config} {m m' : Memory} {w : Write}

/-- The transaction that a write opens has the log of the one before. -/
theorem Transaction.log_opened (t : Transaction) : t.opened.log = t.log := by
  unfold Transaction.opened
  split <;> rfl

namespace Write

/-- Whether a write lies within its array. -/
def InRange (w : Write) (s : Store) : Prop :=
  ∃ d, s.descriptor? w.array = some d ∧ w.offset + w.bytes.length ≤ d.byteLength

/-! ## Steps of a write in range -/

theorem InRange.read (hw : w.InRange m.store) (h : m.Sound c) :
    ∃ before, m.store.read w.array w.offset w.bytes.length = .ok before := by
  obtain ⟨d, hd, hfits⟩ := hw
  obtain ⟨cell, hfound, rfl⟩ := Table.descriptor?_eq_some_iff.mp hd
  rw [← (h.store.cells hfound).size] at hfits
  exact ⟨_, Store.read_eq_ok_iff.mpr
    ⟨cell, h.store.cell_iff.mpr hfound, Cell.read_eq_ok_iff.mpr ⟨hfits, rfl⟩⟩⟩

theorem InRange.logs (hw : w.InRange m.store) (h : m.Sound c) : ∃ b, w.logs m = .ok b := by
  obtain ⟨d, hd, _⟩ := hw
  have hlookup : m.store.descriptor .store w.array = .ok d := h.store.descriptor_iff.mpr hd
  unfold Write.logs
  rw [hlookup]
  rcases w.lane with _ | _ | _ | _ <;> exact ⟨_, rfl⟩

/-- The store takes all bytes of a write in range unless a tear strikes. -/
theorem InRange.answer (hw : w.InRange m.store) (h : m.Sound c) :
    w.answer m = .ok () ∨ ∃ e, w.answer m = .error e ∧ e.isPowerLoss = true := by
  obtain ⟨before, hread⟩ := hw.read h
  rcases hanswer : w.answer m with e | _
  · exact .inr ⟨e, rfl, isPowerLoss_of_read hread hanswer⟩
  · exact .inl rfl

theorem logged_of_read {before : List UInt8}
    (hread : m.store.read w.array w.offset w.bytes.length = .ok before) :
    w.logged m = (m.transaction.opened.logBefore? ⟨w.array, w.offset, before⟩).map fun t =>
      { m with transaction := t } := by
  unfold logged
  rw [hread]
  show (m.transaction.opened.logBefore? _ >>= _) = _
  rcases m.transaction.opened.logBefore? ⟨w.array, w.offset, before⟩ with _ | _ <;> rfl

/-- A write in range gets its entry exactly if there is room for it. -/
theorem InRange.logged (hw : w.InRange m.store) (h : m.Sound c) :
    (m.transaction.log.fits w.bytes.length = true ∧ ∃ m', w.logged m = .ok m') ∨
    (m.transaction.log.fits w.bytes.length = false ∧
      ∃ e, w.logged m = .error e ∧ e.isBufferFull = true) := by
  obtain ⟨before, hread⟩ := hw.read h
  have hlength : before.length = w.bytes.length := Store.length_of_read hread
  rw [logged_of_read hread]
  unfold Transaction.logBefore?
  simp only [hlength, Transaction.log_opened]
  rcases m.transaction.log.fits w.bytes.length with _ | _
  · exact .inr ⟨rfl, _, rfl, rfl⟩
  · exact .inl ⟨rfl, _, rfl⟩

/-- Handing a write to the store changes no array. -/
theorem store_issued (hm : w.issued m = .ok m') : m'.store = m.store := by
  rcases issued_cases hm with ⟨_, rfl⟩ | ⟨_, hlogged⟩
  · rfl
  · obtain ⟨_, _, hstore, _⟩ := entries_logged hlogged
    exact hstore

/-! ## Ends of a write in range -/

/-- How a write in range ends. -/
inductive Ended (w : Write) (m : Memory) : Except Fault Unit × Memory → Prop where
  | done {m' : Memory} :
      w.issued m = .ok m' → w.answer m' = .ok () → Ended w m (.ok (), (w.stored m').settled)
  | lost {m' : Memory} {e : Fault} :
      w.issued m = .ok m' → e.isPowerLoss = true → Ended w m (.error e, (w.stored m').recovered)
  | full {e : Fault} :
      w.logs m = .ok true → m.transaction.log.fits w.bytes.length = false →
      e.isBufferFull = true → Ended w m (.error e, m.rolledBack)

/-- A write in range that is issued is done unless power is lost. -/
theorem ended_of_issued (hw : w.InRange m.store) (h : m.Sound c) (hm : w.issued m = .ok m') :
    Ended w m (w.ending m (w.issued m)) := by
  have hw' : w.InRange m'.store := by
    rw [store_issued hm]
    exact hw
  rw [hm, ending, concluded]
  rcases hw'.answer (sound_issued h hm) with hanswer | ⟨e, hanswer, hloss⟩
  · rw [hanswer]
    exact .done hm hanswer
  · simp only [hanswer, hloss, if_true]
    rw [settled_eq (Memory.settled_of_idle rfl)]
    exact .lost hm hloss

theorem ended (hw : w.InRange m.store) (h : m.Sound c) (hs : m.Settled) :
    Ended w m (w.act.exec m) := by
  rw [exec_act h hs]
  obtain ⟨logs, hlogs⟩ := hw.logs h
  cases logs with
  | false => exact ended_of_issued hw h (issued_of_unlogged hlogs)
  | true =>
    rcases hw.logged h with ⟨_, m', hm'⟩ | ⟨hfits, e, he, hfull⟩
    · exact ended_of_issued hw h (issued_of_logged hlogs ▸ hm')
    · rw [issued_of_logged hlogs, he, ending]
      simp only [hfull, if_true]
      exact .full hlogs hfits hfull

end Write

end SmartCard
