-- SUMMARY: Powering up from the image of a sound memory gives what a recovery after a loss of power leaves.
import SmartCard.Proofs.Image.PowerUp
import SmartCard.Proofs.Memory.Sound

/-!
# Capturing and powering up

An image says nothing of pools, of the next reference or of transient payloads: powering up has to
find them again. It does, because a sound store is determined by its table and its tear
(`Store.Sound.ext`), and because rolling back commutes with clearing the transient arrays
(`Store.undone_clearTransients`). So powering up from the image of a memory ends where the recovery
of that memory ends (`Image.powerUp_capture`).
-/

namespace SmartCard

variable {c : Config} {s s' : Store}

/-! ## Stores told apart by their tables -/

theorem Pool.ext_toNat {p q : Pool} (hused : p.used.toNat = q.used.toNat)
    (hcapacity : p.capacity = q.capacity) :
    p = q := by
  obtain ⟨pu, pc⟩ := p
  obtain ⟨qu, qc⟩ := q
  rw [Pool.mk.injEq]
  exact ⟨UInt32.toNat_inj.mp hused, hcapacity⟩

theorem Pools.ext_of {ps qs : Pools} (h : ∀ l, ps.of l = qs.of l) : ps = qs := by
  obtain ⟨p₁, p₂, p₃⟩ := ps
  obtain ⟨q₁, q₂, q₃⟩ := qs
  rw [Pools.mk.injEq]
  exact ⟨h .persistent, h .transientReset, h .transientDeselect⟩

namespace Store

/-- Pools and the next reference follow from the table. -/
theorem Sound.ext (h : s.Sound c) (h' : s'.Sound c) (htable : s.table = s'.table)
    (htear : s.tear = s'.tear) : s = s' := by
  have hnext : s.next = s'.next := by rw [h.next_eq, h'.next_eq, htable]
  have hpools : s.pools = s'.pools := by
    refine Pools.ext_of fun l => Pool.ext_toNat ?_ ?_
    · rw [h.used_eq, h'.used_eq, htable]
    · rw [h.capacity_eq, h'.capacity_eq]
  obtain ⟨table, next, pools, tear⟩ := s
  obtain ⟨table', next', pools', tear'⟩ := s'
  rw [Store.mk.injEq]
  exact ⟨htable, hnext, hpools, htear⟩

/-! ## Rolling back in cleared stores -/

/-- Clearing transient arrays does not get in the way of an overwrite in a persistent one. -/
theorem restoreBytes_clearTransients {array : ArrayRef} (hp : s.IsPersistent array) {offset : Nat}
    {bytes : List UInt8} (hs : s.restoreBytes array offset bytes = .ok s')
    (ends : Lifetime → Bool) :
    (s.clearTransients ends).restoreBytes array offset bytes = .ok (s'.clearTransients ends) := by
  obtain ⟨cell, hcell, hfits, rfl⟩ := restoreBytes_eq_ok_iff.mp hs
  obtain ⟨hnull, hfound⟩ := cell_eq_ok_iff.mp hcell
  have hpersistent : cell.descriptor.lifetime.isPersistent = true := by
    obtain ⟨d, hd, hpersistent⟩ := hp
    obtain ⟨found, hfound', rfl⟩ := Table.descriptor?_eq_some_iff.mp hd
    rw [hfound, Option.some.injEq] at hfound'
    exact hfound' ▸ hpersistent
  have hfound' : (s.clearTransients ends).table.find? array = some cell := by
    rw [find?_clearTransients, hfound, Option.map_some, cleared_of_persistent hpersistent]
  refine restoreBytes_eq_ok_iff.mpr ⟨cell, cell_eq_ok_iff.mpr ⟨hnull, hfound'⟩, hfits, ?_⟩
  have htable : (s.table.set array (cell.splice offset bytes)).mapCells (fun _ => cleared ends) =
      (s.table.mapCells fun _ => cleared ends).set array (cell.splice offset bytes) := by
    refine Table.ext fun other => ?_
    rw [Table.find?_mapCells, Table.find?_set, Table.find?_set, Table.find?_mapCells]
    split
    next heq =>
      subst heq
      rw [hfound]
      simp [cleared_of_persistent, hpersistent]
    next => rfl
  show Store.mk ((s.table.set array (cell.splice offset bytes)).mapCells fun _ => cleared ends)
    s.next s.pools s.tear = _
  rw [htable]
  rfl

/-- Rolling back and clearing transient arrays may change places. -/
theorem Sound.undone_clearTransients (h : s.Sound c) {entries : List UndoEntry}
    (hin : ∀ {e}, e ∈ entries → e.InRange s) (ends : Lifetime → Bool) :
    (s.clearTransients ends).undone entries = (s.undone entries).clearTransients ends := by
  induction entries generalizing s with
  | nil => rfl
  | cons e older ih =>
    have hp := (hin List.mem_cons_self).isPersistent
    obtain ⟨d, hd, _, hfits⟩ := hin List.mem_cons_self
    obtain ⟨s₁, hs₁⟩ := h.restoreBytes_isOk hd hfits
    rw [undone_cons hs₁, undone_cons (restoreBytes_clearTransients hp hs₁ ends)]
    exact ih (h.restoreBytes hs₁) fun he =>
      (hin (List.mem_cons_of_mem _ he)).of_descriptor? (descriptor?_restoreBytes hs₁)

/-- What an image says of a store: transient arrays are zero, and no tear is armed. -/
def repowered (s : Store) : Store := { s.clearTransients fun _ => true with tear := none }

theorem Sound.repowered (h : s.Sound c) : s.repowered.Sound c :=
  (h.clearTransients fun _ => true).withTear none

theorem descriptor?_repowered (s : Store) : s.repowered.descriptor? = s.descriptor? :=
  descriptor?_clearTransients s fun _ => true

/-! ## Room in the pools -/

/-- A store with room for an array has room left in the pool. -/
theorem Sound.room (h : s.Sound c) {l : Lifetime} {bytes : Nat} (hsize : bytes < UInt32.size)
    (hle : s.table.bytesOf l + bytes ≤ (c.poolCapacity l).toNat) :
    ¬(s.pools.of l).available < UInt32.ofNat bytes := by
  have hused := h.used_eq l
  have hcapacity := h.capacity_eq l
  have havailable : (s.pools.of l).available.toNat =
      (c.poolCapacity l).toNat - s.table.bytesOf l := by
    rw [Pool.toNat_available (by rw [hused, hcapacity]; exact h.used_le l), hused, hcapacity]
  rw [UInt32.not_lt, UInt32.le_iff_toNat_le, UInt32.toNat_ofNat_of_lt' hsize, havailable]
  omega

end Store

/-! ## Arrays in images -/

/-- A cell comes back from its image as it was, or zeroed if it is transient. -/
theorem Cell.Sound.cell_captureArray {cell : Cell} (h : cell.Sound) (array : ArrayRef) :
    (Image.captureArray array cell).cell = .ok (Store.cleared (fun _ => true) cell) := by
  have hlength : (UInt16.ofNat cell.descriptor.length).toNat = cell.descriptor.length :=
    UInt16.toNat_ofNat_of_lt' (Nat.lt_of_le_of_lt h.length_le (by decide))
  unfold Image.captureArray ImageArray.cell
  dsimp only
  rw [Kind.ofCode?_code, Lifetime.ofMemoryType?_memoryType]
  dsimp only
  rw [hlength, if_neg (Nat.not_lt.mpr h.length_le)]
  by_cases hp : cell.descriptor.lifetime.isPersistent = true
  · simp only [hp, if_true, Store.cleared_of_persistent]
    exact if_pos h.size
  · rw [if_neg hp]
    have ht := Lifetime.isTransient_of_not_persistent (Bool.not_eq_true _ ▸ hp)
    rw [Store.cleared, ht, Bool.and_self, if_pos rfl, h.clear_eq_zeroed ht]

namespace Table

/-- Behind all references in use there is the place for a new array. -/
theorem insertEntry_last {array : ArrayRef} (cell : Cell) {es : List (ArrayRef × Cell)}
    (h : ∀ entry ∈ es, entry.1.id < array.id) :
    insertEntry array cell es = es ++ [(array, cell)] := by
  induction es with
  | nil => rfl
  | cons entry rest ih =>
    have hlt := h entry List.mem_cons_self
    have hne : array ≠ entry.1 := by
      rintro rfl
      exact UInt32.lt_irrefl _ hlt
    rw [insertEntry, if_neg (UInt32.not_lt.mpr (UInt32.le_of_lt hlt)), if_neg hne,
      ih fun other hother => h other (List.mem_cons_of_mem _ hother)]
    rfl

theorem eq_of_entries {t u : Table} (h : t.entries = u.entries) : t = u := by
  obtain ⟨es, _⟩ := t
  obtain ⟨fs, _⟩ := u
  cases h
  rfl

theorem find?_eq_none_of_lt {t : Table} {array : ArrayRef}
    (h : ∀ entry ∈ t.entries, entry.1.id < array.id) :
    t.find? array = none := by
  rcases hfound : t.find? array with _ | cell
  · rfl
  · have hmem := (lookup_eq_some_iff_mem t.ascending).mp hfound
    exact absurd (h _ hmem) (UInt32.lt_irrefl _)

end Table

namespace Image

/-- The entry of a table as it comes back from an image. -/
def clearedEntry (entry : ArrayRef × Cell) : ArrayRef × Cell :=
  (entry.1, Store.cleared (fun _ => true) entry.2)

theorem sum_charge_clearedEntry (l : Lifetime) (es : List (ArrayRef × Cell)) :
    ((es.map clearedEntry).map (Table.charge l)).sum = (es.map (Table.charge l)).sum := by
  rw [List.map_map]
  congr 1
  refine List.map_congr_left fun entry _ => ?_
  simp [clearedEntry, Table.charge]

/-- Adopting the arrays of a sound store one by one. The store at hand holds those that came before.
-/
theorem adoptArrays_captured (h : s'.Sound c) {done rest : List (ArrayRef × Cell)}
    (hentries : s'.table.entries = done ++ rest) (hs : s.Sound c)
    (hdone : s.table.entries = done.map clearedEntry) :
    ∃ t, adoptArrays s (rest.map fun entry => captureArray entry.1 entry.2) = .ok t ∧ t.Sound c ∧
      t.tear = s.tear ∧ t.table.entries = s'.table.entries.map clearedEntry := by
  induction rest generalizing done s with
  | nil => exact ⟨s, rfl, hs, rfl, by rw [hdone, hentries, List.append_nil]⟩
  | cons entry rest ih =>
    obtain ⟨array, cell⟩ := entry
    have hmem : (array, cell) ∈ s'.table.entries := by
      rw [hentries]
      exact List.mem_append_right _ List.mem_cons_self
    have hfound := (Table.lookup_eq_some_iff_mem s'.table.ascending).mpr hmem
    have hcell := h.cells hfound
    have hcleared := Store.Cell.Sound.cleared hcell fun _ => true
    have hascending := s'.table.ascending
    rw [hentries, List.pairwise_append] at hascending
    have hlast : ∀ entry ∈ s.table.entries, entry.1.id < array.id := by
      intro entry hentry
      rw [hdone, List.mem_map] at hentry
      obtain ⟨old, hold, rfl⟩ := hentry
      exact hascending.2.2 old hold _ List.mem_cons_self
    have hnull : array ≠ .null := by
      rintro rfl
      have hnone := h.null_free
      unfold Table.find? at hnone
      rw [hfound] at hnone
      cases hnone
    have hfree := Table.find?_eq_none_of_lt hlast
    have hroom : ¬(s.pools.of cell.descriptor.lifetime).available <
        UInt32.ofNat cell.descriptor.byteLength := by
      apply hs.room (Descriptor.byteLength_lt hcell.length_le)
      refine Nat.le_trans ?_ (h.used_le cell.descriptor.lifetime)
      unfold Table.bytesOf
      rw [hdone, sum_charge_clearedEntry, hentries, List.map_append, List.sum_append, List.map_cons,
        List.sum_cons]
      simp only [Table.charge, if_true]
      omega
    have hadopt := (hs.adopt_eq_ok_iff hcleared).mpr ⟨hnull, hfree, by simpa using hroom, rfl⟩
    rw [Store.cleared_descriptor] at hadopt
    have hentries' : s'.table.entries = (done ++ [(array, cell)]) ++ rest := by simpa using hentries
    obtain ⟨t, ht, hsound, htear, htable⟩ := ih hentries' (hs.adopt hcleared hadopt) (by
      show Table.insertEntry array _ s.table.entries = _
      rw [Table.insertEntry_last _ hlast, hdone, List.map_append]
      rfl)
    refine ⟨t, ?_, hsound, htear, htable⟩
    rw [List.map_cons, adoptArrays, hcell.cell_captureArray]
    dsimp only
    rw [show (captureArray array cell).array = array from rfl, hadopt]
    exact ht

/-! ## Memories -/

variable {m : Memory}

theorem entry_captureUndo {e : UndoEntry} (h : e.offset < UInt64.size) :
    (captureUndo e).entry = e := by
  unfold captureUndo ImageUndo.entry
  dsimp only
  rw [UInt64.toNat_ofNat_of_lt' h]

/-- An undo log comes back from its image. -/
theorem entries_captured (h : m.Sound c) :
    (capture m).pending.reverse.map ImageUndo.entry = m.transaction.log.entries := by
  unfold capture
  dsimp only
  rw [← List.map_reverse, List.reverse_reverse, List.map_map]
  refine (List.map_congr_left fun e he => ?_).trans (List.map_id _)
  obtain ⟨d, hd, _, hfits⟩ := h.entries he
  obtain ⟨cell, hfound, rfl⟩ := Table.descriptor?_eq_some_iff.mp hd
  have hlt := Descriptor.byteLength_lt (h.store.cells hfound).length_le
  have hwide : UInt32.size ≤ UInt64.size := by decide
  exact entry_captureUndo (by omega)

/-- The arrays of an image come back cleared, with everything else of their store but the tear. -/
theorem adoptArrays_capture (h : m.Sound c) :
    adoptArrays (.empty c) (capture m).arrays = .ok m.store.repowered := by
  have hentries : m.store.table.entries = [] ++ m.store.table.entries := rfl
  obtain ⟨t, ht, hsound, htear, htable⟩ := adoptArrays_captured h.store hentries (.empty c) rfl
  have heq : t = m.store.repowered := hsound.ext h.store.repowered
    (Table.eq_of_entries htable) htear
  rw [← heq]
  exact ht

/-- Powering up from an image and recovering after a loss of power come to the same. -/
theorem powerUp_capture (h : m.Sound c) : powerUp c (capture m) = .ok m.recovered := by
  have hrestored := h.store.repowered.restored_undone fun he =>
    (h.entries he).of_descriptor? m.store.descriptor?_repowered
  have hstore : m.store.repowered.undone m.transaction.log.entries = m.recovered.store := by
    unfold Store.repowered
    rw [Store.undone_withTear, h.store.undone_clearTransients h.entries]
    rfl
  refine powerUp_eq_ok_iff.mpr ⟨rfl, m.store.repowered, m.recovered.store, adoptArrays_capture h,
    ?_, ?_⟩
  · rw [entries_captured h, hrestored.exec, hstore]
  · unfold Memory.recovered
    rw [h.close_eq]

/-- Images have no transient payloads. -/
theorem captureArray_cleared (array : ArrayRef) (cell : Cell) :
    captureArray array (Store.cleared (fun _ => true) cell) = captureArray array cell := by
  by_cases hp : cell.descriptor.lifetime.isPersistent = true
  · rw [Store.cleared_of_persistent hp]
  · unfold captureArray
    simp only [Store.cleared_descriptor, hp, Bool.false_eq_true, if_false]

/-- An idle memory has the same image before and after a recovery. -/
theorem capture_recovered (h : m.Sound c) (hidle : m.transaction.isIdle = true) :
    capture m.recovered = capture m := by
  have hentries := h.entries_of_idle hidle
  have htable : m.recovered.store.table.entries = m.store.table.entries.map clearedEntry := by
    unfold Memory.recovered Memory.undone
    rw [hentries, Store.undone_nil]
    rfl
  unfold capture
  rw [htable, List.map_map, hentries]
  congr 1
  refine List.map_congr_left fun entry _ => ?_
  exact captureArray_cleared entry.1 entry.2

end Image

end SmartCard
