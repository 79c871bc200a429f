-- SUMMARY: Writes that are done: exactly when they are, the store that they leave, and writes side by side.
import SmartCard.Proofs.Elements
import SmartCard.Proofs.Memory.Budget

/-!
# Writes that are done

A write in range is done exactly if the tear budget covers its bytes and its undo entry, if it keeps
one, has room (`Write.act_eq_ok_iff`). On whatever lane it went, it leaves the same store: the bytes
are in place and paid for (`Store.withBytes`). Writes side by side leave what one write of all their
bytes leaves.
-/

namespace SmartCard

variable {c : Config} {s : Store} {m : Memory} {w : Write} {array : ArrayRef} {d : Descriptor}
  {bytes : List UInt8} {offset i n : Nat}

/-! ## Cells -/

namespace Cell

variable {cell : Cell}

/-- What was written is read again. -/
theorem read_splice_inside (hfits : offset + bytes.length ≤ cell.payload.length)
    (h : i + n ≤ bytes.length) :
    (cell.splice offset bytes).read (offset + i) n = .ok ((bytes.drop i).take n) := by
  refine read_eq_ok_iff.mpr ⟨?_, List.ext_getElem? fun j => ?_⟩
  · rw [splice_payload_length hfits]
    omega
  · simp only [List.getElem?_take, List.getElem?_drop, splice_getElem? hfits]
    by_cases hj : j < n
    · rw [if_pos hj, if_pos hj, if_pos ⟨by omega, by omega⟩, Nat.add_assoc,
        Nat.add_sub_cancel_left]
    · rw [if_neg hj, if_neg hj]

/-- What lies beside the written bytes is read as before. -/
theorem read_splice_outside (hfits : offset + bytes.length ≤ cell.payload.length)
    (h : i + n ≤ offset ∨ offset + bytes.length ≤ i) :
    (cell.splice offset bytes).read i n = cell.read i n := by
  have hbytes : ((cell.splice offset bytes).payload.drop i).take n =
      (cell.payload.drop i).take n := by
    refine List.ext_getElem? fun j => ?_
    simp only [List.getElem?_take, List.getElem?_drop, splice_getElem? hfits]
    by_cases hj : j < n
    · rw [if_pos hj, if_pos hj, if_neg (by omega)]
    · rw [if_neg hj, if_neg hj]
  simp only [read, splice_payload_length hfits, hbytes]

/-- Only the last payload counts for the digest. -/
theorem refresh_withPayload (cell : Cell) (payload : List UInt8) :
    refresh { cell.refresh with payload := payload } =
      refresh { cell with payload := payload } := by
  unfold refresh
  cases hsensitive : cell.descriptor.sensitive <;> simp [hsensitive]

/-- Bytes written side by side are bytes written at once. -/
theorem splice_append (xs ys : List UInt8) (h : offset ≤ cell.payload.length) :
    (cell.splice offset xs).splice (offset + xs.length) ys = cell.splice offset (xs ++ ys) := by
  have hfront : (cell.payload.take offset ++ xs).length = offset + xs.length := by
    simp [h]
  have hpayload : (cell.splice offset xs).payload.take (offset + xs.length) ++ ys ++
      (cell.splice offset xs).payload.drop (offset + xs.length + ys.length) =
        cell.payload.take offset ++ (xs ++ ys) ++
          cell.payload.drop (offset + (xs ++ ys).length) := by
    rw [splice_payload, List.take_left' hfront, ← List.drop_drop, List.drop_left' hfront,
      List.drop_drop]
    simp [Nat.add_assoc]
  conv_lhs => rw [splice, hpayload]
  conv_lhs => rw [splice, refresh_withPayload]
  rfl

end Cell

/-! ## Stores -/

namespace Store

/-- The store once it has taken the bytes of a write, and they are paid for. -/
def withBytes (s : Store) (array : ArrayRef) (offset : Nat) (bytes : List UInt8) : Store :=
  if bytes.isEmpty then s
  else
    { s with
      table := s.table.mapCells fun other cell =>
        if other = array then cell.splice offset bytes else cell
      tear := s.tear.map fun budget => budget - UInt64.ofNat bytes.length }

@[simp] theorem withBytes_nil (s : Store) (array : ArrayRef) (offset : Nat) :
    s.withBytes array offset [] = s := rfl

theorem find?_withBytes_of_ne {other : ArrayRef} (hne : other ≠ array) :
    (s.withBytes array offset bytes).table.find? other = s.table.find? other := by
  unfold withBytes
  split
  · rfl
  · simp [Table.find?_mapCells, hne]

theorem find?_withBytes (hne : bytes ≠ []) :
    (s.withBytes array offset bytes).table.find? array =
      (s.table.find? array).map fun cell => cell.splice offset bytes := by
  simp [withBytes, hne, Table.find?_mapCells]

theorem descriptor?_withBytes : (s.withBytes array offset bytes).descriptor? = s.descriptor? := by
  unfold withBytes
  split
  · rfl
  · refine Table.descriptor?_mapCells fun _ => ?_
    split
    · exact Cell.splice_descriptor _ _ _
    · rfl

theorem tear_withBytes : (s.withBytes array offset bytes).tear =
    s.tear.map fun budget => budget - UInt64.ofNat bytes.length := by
  unfold withBytes
  split
  next hempty =>
    rw [List.isEmpty_iff.mp hempty]
    simp
  next => rfl

/-- A write that the budget covers makes this of the store. -/
theorem withBytes_of_restoreBytes {s' : Store} (hne : bytes ≠ [])
    (hs : s.restoreBytes array offset bytes = .ok s') :
    { s' with tear := s.tear.map fun budget => budget - UInt64.ofNat bytes.length } =
      s.withBytes array offset bytes := by
  obtain ⟨cell, hcell, _, rfl⟩ := restoreBytes_eq_ok_iff.mp hs
  have hfound := (cell_eq_ok_iff.mp hcell).2
  have htable : s.table.set array (cell.splice offset bytes) =
      s.table.mapCells fun other cell =>
        if other = array then cell.splice offset bytes else cell := by
    refine Table.ext fun other => ?_
    rw [Table.find?_set, Table.find?_mapCells]
    split
    next heq => simp [heq, hfound]
    next hother => simp
  simp [withBytes, hne, htable]

/-- Writes side by side leave what one write of all their bytes leaves. -/
theorem withBytes_append (xs ys : List UInt8)
    (h : ∀ cell, s.table.find? array = some cell → offset ≤ cell.payload.length) :
    (s.withBytes array offset xs).withBytes array (offset + xs.length) ys =
      s.withBytes array offset (xs ++ ys) := by
  rcases xs with _ | ⟨x, xs⟩
  · rfl
  rcases ys with _ | ⟨y, ys⟩
  · simp
  have htable : ((s.withBytes array offset (x :: xs)).withBytes array
      (offset + (x :: xs).length) (y :: ys)).table =
        (s.withBytes array offset (x :: xs ++ y :: ys)).table := by
    refine Table.ext fun other => ?_
    by_cases hother : other = array
    · subst hother
      simp only [find?_withBytes, ne_eq, reduceCtorEq, not_false_eq_true, List.append_eq_nil_iff,
        false_and, Option.map_map]
      rcases hfound : s.table.find? other with _ | cell
      · rfl
      · exact congrArg some (Cell.splice_append _ _ (h cell hfound))
    · simp only [find?_withBytes_of_ne hother]
  have htear : ((s.withBytes array offset (x :: xs)).withBytes array
      (offset + (x :: xs).length) (y :: ys)).tear =
        (s.withBytes array offset (x :: xs ++ y :: ys)).tear := by
    simp only [tear_withBytes, Option.map_map, List.length_append, UInt64.ofNat_add]
    congr 1
    funext budget
    simp only [Function.comp_apply]
    grind
  show Store.mk _ _ _ _ = Store.mk _ _ _ _
  exact congrArg₂ (fun table tear => Store.mk table s.next s.pools tear) htable htear

/-- What was written is read again. -/
theorem Sound.read_withBytes_inside (h : s.Sound c) (hd : s.descriptor? array = some d)
    (hfits : offset + bytes.length ≤ d.byteLength) (hi : i + n ≤ bytes.length) :
    (s.withBytes array offset bytes).read array (offset + i) n = .ok ((bytes.drop i).take n) := by
  obtain ⟨cell, hfound, rfl⟩ := Table.descriptor?_eq_some_iff.mp hd
  have hcell : s.cell .store array = .ok cell := h.cell_iff.mpr hfound
  rw [← (h.cells hfound).size] at hfits
  by_cases hne : bytes = []
  · subst hne
    simp only [List.length_nil, Nat.add_zero, Nat.le_zero_eq, Nat.add_eq_zero_iff] at hfits hi
    refine read_eq_ok_iff.mpr ⟨cell, hcell, Cell.read_eq_ok_iff.mpr ⟨by omega, ?_⟩⟩
    simp [hi.2]
  · have hfound' : (s.withBytes array offset bytes).table.find? array =
        some (cell.splice offset bytes) := by
      rw [find?_withBytes hne, hfound, Option.map_some]
    refine read_eq_ok_iff.mpr ⟨cell.splice offset bytes, ?_, Cell.read_splice_inside hfits hi⟩
    exact cell_eq_ok_iff.mpr ⟨(cell_eq_ok_iff.mp hcell).1, hfound'⟩

/-- What lies beside the written bytes is read as before. -/
theorem Sound.read_withBytes_outside (h : s.Sound c) (hd : s.descriptor? array = some d)
    (hfits : offset + bytes.length ≤ d.byteLength) {other : ArrayRef}
    (hout : other = array → i + n ≤ offset ∨ offset + bytes.length ≤ i) :
    (s.withBytes array offset bytes).read other i n = s.read other i n := by
  obtain ⟨cell, hfound, rfl⟩ := Table.descriptor?_eq_some_iff.mp hd
  rw [← (h.cells hfound).size] at hfits
  by_cases hother : other = array
  · subst hother
    by_cases hne : bytes = []
    · rw [hne, withBytes_nil]
    · have hfound' : (s.withBytes other offset bytes).table.find? other =
          some (cell.splice offset bytes) := by
        rw [find?_withBytes hne, hfound, Option.map_some]
      have hread := Cell.read_splice_outside hfits (hout rfl)
      unfold read Store.cell
      split
      · rfl
      · simp only [hfound', hfound]
        exact hread
  · unfold read Store.cell
    rw [find?_withBytes_of_ne hother]

/-- Bytes beside the written ones are as before. -/
theorem Sound.byte?_withBytes_outside (h : s.Sound c) (hd : s.descriptor? array = some d)
    (hfits : offset + bytes.length ≤ d.byteLength) {other : ArrayRef}
    (hout : ¬(other = array ∧ offset ≤ i ∧ i < offset + bytes.length)) :
    (s.withBytes array offset bytes).byte? other i = s.byte? other i := by
  obtain ⟨cell, hfound, rfl⟩ := Table.descriptor?_eq_some_iff.mp hd
  rw [← (h.cells hfound).size] at hfits
  unfold byte?
  by_cases hother : other = array
  · subst hother
    by_cases hne : bytes = []
    · rw [hne, withBytes_nil]
    · have hbeside : ¬(offset ≤ i ∧ i < offset + bytes.length) := fun hin => hout ⟨rfl, hin⟩
      rw [find?_withBytes hne, hfound]
      simp [Cell.splice_getElem? hfits, hbeside]
  · rw [find?_withBytes_of_ne hother]

end Store

/-! ## Writes -/

namespace Write

/-- Nothing keeps a write in range from being done: the tear budget covers it, and there is room for
its undo entry if it keeps one. -/
structure Unhindered (w : Write) (m : Memory) : Prop where
  powered : ∀ budget, m.store.tear = some budget → w.bytes.length ≤ budget.toNat
  roomy : w.logs m = .ok true → m.transaction.log.fits w.bytes.length = true

/-- A write is issued exactly if there is room for its undo entry. -/
theorem issued_isOk_iff (hw : w.InRange m.store) (h : m.Sound c) :
    (∃ m', w.issued m = .ok m') ↔
      (w.logs m = .ok true → m.transaction.log.fits w.bytes.length = true) := by
  obtain ⟨logs, hlogs⟩ := hw.logs h
  cases logs with
  | false =>
    rw [issued_of_unlogged hlogs, hlogs]
    exact ⟨fun _ => nofun, fun _ => ⟨m, rfl⟩⟩
  | true =>
    rw [issued_of_logged hlogs]
    rcases hw.logged h with ⟨hfits, m', hm'⟩ | ⟨hfull, e, he, _⟩
    · exact ⟨fun _ _ => hfits, fun _ => ⟨m', hm'⟩⟩
    · simp [hlogs, he, hfull]

/-- The store takes all bytes of a write exactly if the tear budget covers them. -/
theorem answer_eq_ok_iff (hw : w.InRange m.store) (h : m.Sound c) :
    w.answer m = .ok () ↔
      ∀ budget, m.store.tear = some budget → w.bytes.length ≤ budget.toNat := by
  obtain ⟨before, hread⟩ := hw.read h
  constructor
  · intro hanswer
    exact (tear_stored hanswer).1
  · intro hcovered
    rcases hanswer : w.answer m with e | _
    · obtain ⟨budget, htear, hlt, _⟩ := eq_tear_of_answer hread hanswer
      exact absurd (hcovered budget htear) (Nat.not_le.mpr hlt)
    · rfl

/-- A write in range is done exactly if nothing keeps it from that. -/
theorem act_eq_ok_iff (hw : w.InRange m.store) (h : m.Sound c) (hs : m.Settled) :
    (w.act.exec m).1 = .ok () ↔ w.Unhindered m := by
  have hissued := issued_isOk_iff hw h
  rw [exec_act h hs]
  rcases hm : w.issued m with e | m'
  · rw [hm] at hissued
    constructor
    · nofun
    · intro hfree
      obtain ⟨_, hm'⟩ := hissued.mpr hfree.roomy
      cases hm'
  · have hstore := store_issued hm
    have hanswer := answer_eq_ok_iff (hstore ▸ hw) (sound_issued h hm)
    rw [hstore] at hanswer
    have hends : (w.ending m (.ok m')).1 = w.answer m' := by
      rcases hstored : w.answer m' with _ | _ <;> simp [ending, concluded, hstored]
    rw [hends, hanswer]
    exact ⟨fun hcovered => ⟨hcovered, hissued.mp ⟨m', hm⟩⟩, Unhindered.powered⟩

/-- A write in range that is not done has met a tear or a full commit buffer. -/
theorem hindered_of_error (hw : w.InRange m.store) (h : m.Sound c) (hs : m.Settled) {e : Fault}
    (he : (w.act.exec m).1 = .error e) :
    (∃ budget, m.store.tear = some budget ∧ budget.toNat < w.bytes.length ∧
      e.isPowerLoss = true) ∨
    (w.logs m = .ok true ∧ m.transaction.log.fits w.bytes.length = false ∧
      e.isBufferFull = true) := by
  have hended := ended hw h hs
  have hdone := act_eq_ok_iff hw h hs
  generalize w.act.exec m = r at he hended hdone
  cases hended with
  | done => cases he
  | @lost m' _ hm hloss =>
    cases he
    have hroomy := (issued_isOk_iff hw h).mp ⟨m', hm⟩
    left
    -- The budget cannot cover the write, which would then have been done.
    by_contra hcovered
    push Not at hcovered
    have hfree : w.Unhindered m := by
      refine ⟨fun budget htear => Nat.not_lt.mp fun hlt => ?_, hroomy⟩
      exact hcovered budget htear hlt hloss
    exact absurd (hdone.mpr hfree) nofun
  | full hlogs hfits hfull =>
    cases he
    exact .inr ⟨hlogs, hfits, hfull⟩

/-- Whatever the lane, a write that is done leaves the same store. -/
theorem store_of_done (hw : w.InRange m.store) (h : m.Sound c) (hs : m.Settled)
    (hne : w.bytes ≠ []) (hok : (w.act.exec m).1 = .ok ()) :
    (w.act.exec m).2.store = m.store.withBytes w.array w.offset w.bytes := by
  have hended := ended hw h hs
  generalize w.act.exec m = r at hok hended
  cases hended with
  | @done m' hm hanswer =>
    have hwritten := w.written m'
    rw [hanswer, store_issued hm] at hwritten
    rw [store_settled]
    generalize (w.stored m').store = s at hwritten
    cases hwritten with
    | whole hs' _ => exact Store.withBytes_of_restoreBytes hne hs'
  | lost => cases hok
  | full => cases hok

end Write

end SmartCard
