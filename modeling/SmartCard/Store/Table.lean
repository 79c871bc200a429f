-- SUMMARY: The arrays of a card: a finite map from references to cells, kept in ascending order.
import SmartCard.ArrayRef
import SmartCard.Cell

/-!
# The table of arrays

A table maps references to cells. Its entries stand in ascending order of their references, so that
a table is determined by what `Table.find?` answers (`Table.ext`).
-/

namespace SmartCard

/-- The cells of a card by reference, in ascending order. -/
structure Table where
  entries : List (ArrayRef × Cell)
  ascending : entries.Pairwise fun x y => x.1.id < y.1.id

namespace Table

def empty : Table := ⟨[], .nil⟩

/-- The cell under a reference. -/
def find? (t : Table) (array : ArrayRef) : Option Cell := t.entries.lookup array

/-- Put a cell in its place, over any cell that has its reference already. -/
def insertEntry (array : ArrayRef) (cell : Cell) : List (ArrayRef × Cell) → List (ArrayRef × Cell)
  | [] => [(array, cell)]
  | entry :: rest =>
    if array.id < entry.1.id then (array, cell) :: entry :: rest
    else if array = entry.1 then (array, cell) :: rest
    else entry :: insertEntry array cell rest

theorem mem_insertEntry {array : ArrayRef} {cell : Cell} {x : ArrayRef × Cell}
    {es : List (ArrayRef × Cell)} (h : x ∈ insertEntry array cell es) :
    x = (array, cell) ∨ x ∈ es := by
  induction es with
  | nil => simpa [insertEntry] using h
  | cons entry rest ih =>
    simp only [insertEntry] at h
    split at h
    · simpa using h
    · split at h
      · rcases List.mem_cons.mp h with h | h
        · exact .inl h
        · exact .inr (List.mem_cons_of_mem _ h)
      · rcases List.mem_cons.mp h with h | h
        · exact .inr (h ▸ List.mem_cons_self)
        · exact (ih h).imp id (List.mem_cons_of_mem _)

theorem insertEntry_ascending (array : ArrayRef) (cell : Cell) {es : List (ArrayRef × Cell)}
    (h : es.Pairwise fun x y => x.1.id < y.1.id) :
    (insertEntry array cell es).Pairwise fun x y => x.1.id < y.1.id := by
  induction es with
  | nil => simp [insertEntry]
  | cons entry rest ih =>
    obtain ⟨hentry, hrest⟩ := List.pairwise_cons.mp h
    simp only [insertEntry]
    split
    next hlt =>
      refine List.pairwise_cons.mpr ⟨fun x hx => ?_, h⟩
      rcases List.mem_cons.mp hx with rfl | hx
      · exact hlt
      · exact UInt32.lt_trans hlt (hentry x hx)
    next hge =>
      split
      next heq => exact List.pairwise_cons.mpr ⟨fun x hx => heq ▸ hentry x hx, hrest⟩
      next hne =>
        refine List.pairwise_cons.mpr ⟨fun x hx => ?_, ih hrest⟩
        rcases mem_insertEntry hx with rfl | hx
        · have hids : entry.1.id ≠ array.id := fun hid => hne (ArrayRef.ext hid.symm)
          show entry.1.id < array.id
          exact UInt32.lt_of_le_of_ne (UInt32.not_lt.mp hge) hids
        · exact hentry x hx

/-- Add a cell, or replace the cell under its reference. -/
def insert (t : Table) (array : ArrayRef) (cell : Cell) : Table :=
  ⟨insertEntry array cell t.entries, insertEntry_ascending array cell t.ascending⟩

/-- Change every cell by what `f` makes of it. -/
def mapCells (t : Table) (f : ArrayRef → Cell → Cell) : Table :=
  ⟨t.entries.map fun entry => (entry.1, f entry.1 entry.2), by
    rw [List.pairwise_map]
    exact t.ascending⟩

/-- Replace the cell under a reference that is in use. -/
def set (t : Table) (array : ArrayRef) (cell : Cell) : Table :=
  t.mapCells fun other old => if other = array then cell else old

@[simp] theorem find?_empty (array : ArrayRef) : empty.find? array = none := rfl

theorem lookup_entry (array : ArrayRef) (entry : ArrayRef × Cell) (rest : List (ArrayRef × Cell)) :
    (entry :: rest).lookup array = if array = entry.1 then some entry.2 else rest.lookup array := by
  obtain ⟨other, cell⟩ := entry
  by_cases h : array = other
  · simp [h]
  · have hne : (array == other) = false := by simpa using h
    simp [List.lookup_cons, h, hne]

theorem lookup_mapCells (f : ArrayRef → Cell → Cell) (array : ArrayRef)
    (es : List (ArrayRef × Cell)) :
    (es.map fun entry => (entry.1, f entry.1 entry.2)).lookup array =
      (es.lookup array).map (f array) := by
  induction es with
  | nil => rfl
  | cons entry rest ih =>
    rw [List.map_cons, lookup_entry, lookup_entry, ih]
    by_cases h : array = entry.1
    · subst h
      simp
    · simp [h]

theorem find?_mapCells (t : Table) (f : ArrayRef → Cell → Cell) (array : ArrayRef) :
    (t.mapCells f).find? array = (t.find? array).map (f array) :=
  lookup_mapCells f array t.entries

theorem find?_set (t : Table) (array other : ArrayRef) (cell : Cell) :
    (t.set array cell).find? other =
      if other = array then (t.find? other).map fun _ => cell else t.find? other := by
  rw [set, find?_mapCells]
  split <;> simp_all

theorem find?_insert (t : Table) (array other : ArrayRef) (cell : Cell) :
    (t.insert array cell).find? other = if other = array then some cell else t.find? other := by
  show (insertEntry array cell t.entries).lookup other = _
  unfold find?
  induction t.entries with
  | nil => rw [insertEntry, lookup_entry]
  | cons entry rest ih =>
    simp only [insertEntry]
    split
    · rw [lookup_entry]
    · split
      next heq =>
        rw [lookup_entry, lookup_entry, ← heq]
        by_cases h : other = array
        · simp [h]
        · simp [h]
      next hne =>
        rw [lookup_entry, lookup_entry, ih]
        by_cases h : other = entry.1
        · simp [h, Ne.symm hne]
        · simp [h]

/-- In an ascending list the first entry is what looking up its reference finds. -/
theorem lookup_eq_some_iff_mem {es : List (ArrayRef × Cell)}
    (h : es.Pairwise fun x y => x.1.id < y.1.id) {array : ArrayRef} {cell : Cell} :
    es.lookup array = some cell ↔ (array, cell) ∈ es := by
  induction es with
  | nil => simp
  | cons entry rest ih =>
    obtain ⟨hentry, hrest⟩ := List.pairwise_cons.mp h
    rw [lookup_entry]
    by_cases heq : array = entry.1
    · have hnot : (array, cell) ∉ rest := fun hm =>
        UInt32.lt_irrefl _ (heq ▸ hentry _ hm)
      subst heq
      simp only [if_true, Option.some.injEq, List.mem_cons, hnot, or_false]
      exact ⟨fun hc => by rw [← hc], fun hc => by rw [← hc]⟩
    · have hne : (array, cell) ≠ entry := fun hc => heq (by rw [← hc])
      simp [heq, ih hrest, hne]

/-- Ascending lists with the same entries are equal. -/
theorem eq_of_same_members {es fs : List (ArrayRef × Cell)}
    (he : es.Pairwise fun x y => x.1.id < y.1.id) (hf : fs.Pairwise fun x y => x.1.id < y.1.id)
    (h : ∀ x, x ∈ es ↔ x ∈ fs) : es = fs := by
  induction es generalizing fs with
  | nil => exact (List.eq_nil_iff_forall_not_mem.mpr fun x hx => by simpa using (h x).mpr hx).symm
  | cons x es ih =>
    cases fs with
    | nil => exact absurd ((h x).mp List.mem_cons_self) (by simp)
    | cons y fs =>
      obtain ⟨hx, hes⟩ := List.pairwise_cons.mp he
      obtain ⟨hy, hfs⟩ := List.pairwise_cons.mp hf
      have hxy : x = y := by
        rcases List.mem_cons.mp ((h x).mp List.mem_cons_self) with hxy | hxfs
        · exact hxy
        · rcases List.mem_cons.mp ((h y).mpr List.mem_cons_self) with hyx | hyes
          · exact hyx.symm
          · exact absurd (UInt32.lt_trans (hx y hyes) (hy x hxfs)) (UInt32.lt_irrefl _)
      subst hxy
      refine congrArg (x :: ·) (ih hes hfs fun z => ⟨fun hz => ?_, fun hz => ?_⟩)
      · rcases List.mem_cons.mp ((h z).mp (List.mem_cons_of_mem _ hz)) with rfl | hzf
        · exact absurd (hx z hz) (UInt32.lt_irrefl _)
        · exact hzf
      · rcases List.mem_cons.mp ((h z).mpr (List.mem_cons_of_mem _ hz)) with rfl | hze
        · exact absurd (hy z hz) (UInt32.lt_irrefl _)
        · exact hze

/-- A table is determined by what it finds. -/
theorem ext {t u : Table} (h : ∀ array, t.find? array = u.find? array) : t = u := by
  obtain ⟨es, he⟩ := t
  obtain ⟨fs, hf⟩ := u
  have : es = fs := eq_of_same_members he hf fun x => by
    rw [← lookup_eq_some_iff_mem he, ← lookup_eq_some_iff_mem hf,
      show es.lookup x.1 = fs.lookup x.1 from h x.1]
  subst this
  rfl

end Table

end SmartCard
