-- SUMMARY: Adopting the arrays of an image: when it succeeds, and that it leads to a sound memory.
import SmartCard.Image.PowerUp
import SmartCard.Proofs.Memory.Sound

/-!
# Powering up into a sound memory

Whatever image a card is powered up from, the memory that comes out is sound: arrays that would
break the store invariant are refused one by one as they are adopted.
-/

namespace SmartCard

variable {c : Config} {s s' : Store}

namespace Store

theorem toNat_max (a b : UInt32) : (max a b).toNat = max a.toNat b.toNat := by
  show (if a ≤ b then b else a).toNat = _
  by_cases hle : a ≤ b
  · rw [if_pos hle, Nat.max_eq_right (UInt32.le_iff_toNat_le.mp hle)]
  · rw [if_neg hle, Nat.max_eq_left (by have := mt UInt32.le_iff_toNat_le.mpr hle; omega)]

/-- The later of two references to hand out next. -/
def laterRef : Option UInt32 → Option UInt32 → Option UInt32
  | some x, some y => some (max x y)
  | _, _ => none

theorem laterRef_nextAfter (a b : Nat) :
    laterRef (nextAfter a) (nextAfter b) = nextAfter (max b a) := by
  unfold nextAfter
  by_cases ha : a + 1 < UInt32.size
  · by_cases hb : b + 1 < UInt32.size
    · rw [if_pos ha, if_pos hb, if_pos (by omega), laterRef]
      rw [Option.some.injEq, ← UInt32.toNat_inj, toNat_max, UInt32.toNat_ofNat_of_lt' ha,
        UInt32.toNat_ofNat_of_lt' hb, UInt32.toNat_ofNat_of_lt'
          (by omega : max b a + 1 < UInt32.size)]
      omega
    · rw [if_pos ha, if_neg hb, if_neg (by omega)]
      rfl
  · rw [if_neg ha, if_neg (by omega : ¬max b a + 1 < UInt32.size)]
    rfl

theorem adopt_eq (s : Store) (array : ArrayRef) (cell : Cell) :
    s.adopt array cell =
      if array.isNull || (s.table.find? array).isSome then .error (.badImageReference array)
      else if (s.pools.of cell.descriptor.lifetime).available < UInt32.ofNat cell.payload.length then
        .error (.imagePoolExhausted array)
      else .ok { s with
        table := s.table.insert array cell
        next := laterRef s.next (refAfter array.id)
        pools := s.pools.charge cell.descriptor.lifetime (UInt32.ofNat cell.payload.length) } := rfl

/-- An array is adopted under a reference that is free and not null, if its pool has room for it. -/
theorem Sound.adopt_eq_ok_iff (h : s.Sound c) {array : ArrayRef} {cell : Cell}
    (hcell : cell.Sound) :
    s.adopt array cell = .ok s' ↔
      array ≠ .null ∧ s.table.find? array = none ∧
        ¬(s.pools.of cell.descriptor.lifetime).available < UInt32.ofNat cell.descriptor.byteLength ∧
        s' = { s with
          table := s.table.insert array cell
          next := nextAfter (max array.id.toNat s.table.lastId)
          pools := s.pools.charge cell.descriptor.lifetime
            (UInt32.ofNat cell.descriptor.byteLength) } := by
  have hnull : array.isNull = true ↔ array = .null := by
    simp [ArrayRef.isNull, ArrayRef.null, ArrayRef.ext_iff]
  rw [adopt_eq, h.next_eq, refAfter_eq_nextAfter, laterRef_nextAfter, hcell.size]
  by_cases hused : array.isNull || (s.table.find? array).isSome
  · rw [if_pos hused]
    simp only [reduceCtorEq, false_iff, not_and]
    intro hne hfree
    rw [hfree, Option.isSome_none, Bool.or_false] at hused
    exact absurd (hnull.mp hused) hne
  · rw [if_neg hused]
    rw [Bool.or_eq_true, not_or, hnull, Bool.not_eq_true, Option.isSome_eq_false_iff,
      Option.isNone_iff_eq_none] at hused
    by_cases hroom : (s.pools.of cell.descriptor.lifetime).available <
        UInt32.ofNat cell.descriptor.byteLength
    · rw [if_pos hroom]
      simp only [hroom, reduceCtorEq, not_true_eq_false, false_and, and_false]
    · rw [if_neg hroom, Except.ok.injEq]
      simp only [hroom, hused, not_false_eq_true, true_and, ne_eq]
      exact eq_comm

theorem Sound.adopt (h : s.Sound c) {array : ArrayRef} {cell : Cell} (hcell : cell.Sound)
    (hs : s.adopt array cell = .ok s') : s'.Sound c := by
  obtain ⟨hnull, hfree, hroom, rfl⟩ := (h.adopt_eq_ok_iff hcell).mp hs
  exact h.insert hcell hfree hnull hroom rfl

/-- Restored bytes never make a store unsound, not even when the restoration stops early. -/
theorem Sound.restore (h : s.Sound c) (entries : List UndoEntry) :
    ((UndoLog.restore entries).exec s).2.Sound c := by
  induction entries generalizing s with
  | nil => exact h
  | cons e older ih =>
    rw [exec_restore_cons]
    rcases hs : s.restoreBytes e.array e.offset e.before with _ | s'
    · exact h
    · exact ih (h.restoreBytes hs)

end Store

theorem ImageArray.sound_cell {a : ImageArray} {cell : Cell} (h : a.cell = .ok cell) :
    cell.Sound := by
  unfold ImageArray.cell at h
  split at h
  · cases h
  · split at h
    · cases h
    next lifetime _ =>
      dsimp only at h
      split at h
      · cases h
      next hlength =>
        split at h
        next hpersistent =>
          split at h
          next hsize =>
            cases h
            refine ⟨Nat.not_lt.mp hlength, hsize, fun htransient => ?_⟩
            rw [Lifetime.not_transient_of_persistent hpersistent] at htransient
            cases htransient
          next => cases h
        next =>
          cases h
          exact .zeroed (Nat.not_lt.mp hlength)

namespace Image

theorem sound_adoptArrays (h : s.Sound c) {arrays : List ImageArray}
    (hs : adoptArrays s arrays = .ok s') : s'.Sound c := by
  induction arrays generalizing s with
  | nil =>
    cases hs
    exact h
  | cons a more ih =>
    unfold adoptArrays at hs
    rcases hcell : a.cell with e | cell
    · rw [hcell] at hs
      cases hs
    · rw [hcell] at hs
      dsimp only at hs
      rcases hadopt : s.adopt a.array cell with e | s₁
      · rw [hadopt] at hs
        cases hs
      · rw [hadopt] at hs
        exact ih (h.adopt (ImageArray.sound_cell hcell) hadopt) hs

theorem powerUp_eq_ok_iff {image : Image} {m : Memory} :
    powerUp c image = .ok m ↔
      image.format = formatVersion ∧
        ∃ s s', adoptArrays (.empty c) image.arrays = .ok s ∧
          (UndoLog.restore (image.pending.reverse.map ImageUndo.entry)).exec s = (.ok (), s') ∧
          m = ⟨s', .idle c⟩ := by
  unfold powerUp
  constructor
  · intro h
    split at h
    next hformat =>
      split at h
      next => cases h
      next s hs =>
        dsimp only at h
        rw [Act.result_eq_exec, Act.state_eq_exec] at h
        rcases hr : (UndoLog.restore (image.pending.reverse.map ImageUndo.entry)).exec s with
          ⟨_ | _, s'⟩
        · rw [hr] at h
          cases h
        · rw [hr] at h
          cases h
          exact ⟨hformat, s, s', hs, hr, rfl⟩
    next => cases h
  · rintro ⟨hformat, s, s', hs, hr, rfl⟩
    simp only [hformat, if_true, hs, Act.result_eq_exec, Act.state_eq_exec, hr]
    rfl

theorem sound_powerUp {image : Image} {m : Memory} (h : powerUp c image = .ok m) : m.Sound c := by
  obtain ⟨_, s, s', hs, hrestore, rfl⟩ := powerUp_eq_ok_iff.mp h
  have hsound := (sound_adoptArrays (.empty c) hs).restore
    (image.pending.reverse.map ImageUndo.entry)
  rw [hrestore] at hsound
  exact .ofStore hsound

theorem settled_powerUp {image : Image} {m : Memory} (h : powerUp c image = .ok m) :
    m.Settled := by
  obtain ⟨_, _, _, _, _, rfl⟩ := powerUp_eq_ok_iff.mp h
  exact Memory.settled_of_idle rfl

end Image

end SmartCard
