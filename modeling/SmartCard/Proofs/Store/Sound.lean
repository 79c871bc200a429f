-- SUMMARY: The store invariant: sound cells, pools charged with exactly the stored arrays, references handed out once.
import Mathlib.Algebra.Ring.Nat
import SmartCard.Proofs.Store.Cells

/-!
# Sound stores

`Store.Sound` ties the parts of a store to its table of arrays: each pool has been charged with the
arrays of its lifetime and nothing else, and the next reference follows the largest one in use. A
store that is changed in its payloads only stays sound (`Store.Sound.mapCells`), and so does one
that takes in a new array (`Store.Sound.insert`).
-/

namespace SmartCard

/-- The size that a configuration gives to the pool of a lifetime. -/
def Config.poolCapacity (c : Config) : Lifetime → UInt32
  | .persistent => c.persistentCapacity
  | .transientReset => c.transientResetCapacity
  | .transientDeselect => c.transientDeselectCapacity

namespace Table

/-- What an entry takes from the pool of a lifetime. -/
def charge (l : Lifetime) (entry : ArrayRef × Cell) : Nat :=
  if entry.2.descriptor.lifetime = l then entry.2.descriptor.byteLength else 0

/-- Bytes of all arrays of a lifetime. -/
def bytesOf (t : Table) (l : Lifetime) : Nat := (t.entries.map (charge l)).sum

/-- The largest reference in use, or 0. -/
def lastId (t : Table) : Nat := (t.entries.map fun entry => entry.1.id.toNat).foldr max 0

/-- What an array was made as, if there is one under the reference. -/
def descriptor? (t : Table) (array : ArrayRef) : Option Descriptor :=
  (t.find? array).map Cell.descriptor

/-! ## Tables changed in their cells -/

/-- An update of cells that leaves the descriptors of the stored ones alone. -/
def KeepsDescriptors (t : Table) (f : ArrayRef → Cell → Cell) : Prop :=
  ∀ {array : ArrayRef} {cell : Cell}, t.find? array = some cell →
    (f array cell).descriptor = cell.descriptor

theorem bytesOf_mapCells {t : Table} {f : ArrayRef → Cell → Cell} (hf : t.KeepsDescriptors f)
    (l : Lifetime) : (t.mapCells f).bytesOf l = t.bytesOf l := by
  unfold bytesOf mapCells
  rw [List.map_map]
  congr 1
  apply List.map_congr_left
  intro entry hentry
  have hd := hf ((lookup_eq_some_iff_mem t.ascending).mpr hentry)
  simp only [Function.comp_apply, charge, hd]

theorem lastId_mapCells (t : Table) (f : ArrayRef → Cell → Cell) :
    (t.mapCells f).lastId = t.lastId := by
  simp [lastId, mapCells, Function.comp_def]

theorem descriptor?_mapCells {t : Table} {f : ArrayRef → Cell → Cell}
    (hf : t.KeepsDescriptors f) : (t.mapCells f).descriptor? = t.descriptor? := by
  funext array
  unfold descriptor?
  rw [find?_mapCells]
  rcases hfound : t.find? array with _ | cell
  · rfl
  · simp [hf hfound]

theorem descriptor?_eq_some_iff {t : Table} {array : ArrayRef} {d : Descriptor} :
    t.descriptor? array = some d ↔ ∃ c, t.find? array = some c ∧ c.descriptor = d := by
  simp [descriptor?]

/-! ## Tables with a new array -/

theorem sum_insertEntry {array : ArrayRef} {cell : Cell} (l : Lifetime)
    {es : List (ArrayRef × Cell)} (h : es.lookup array = none) :
    ((insertEntry array cell es).map (charge l)).sum =
      charge l (array, cell) + (es.map (charge l)).sum := by
  induction es with
  | nil => rfl
  | cons entry rest ih =>
    rw [lookup_entry] at h
    have hne : array ≠ entry.1 := by
      intro heq
      rw [if_pos heq] at h
      cases h
    rw [if_neg hne] at h
    simp only [insertEntry]
    split
    · rfl
    · rw [List.map_cons, List.sum_cons, ih h, List.map_cons, List.sum_cons]
      omega

theorem bytesOf_insert {t : Table} {array : ArrayRef} {cell : Cell} (l : Lifetime)
    (h : t.find? array = none) :
    (t.insert array cell).bytesOf l = charge l (array, cell) + t.bytesOf l :=
  sum_insertEntry l h

theorem lastId_insert (t : Table) (array : ArrayRef) (cell : Cell) :
    (t.insert array cell).lastId = max array.id.toNat t.lastId := by
  show ((insertEntry array cell t.entries).map _).foldr max 0 = max _
      ((t.entries.map _).foldr max 0)
  induction t.entries with
  | nil => rfl
  | cons entry rest ih =>
    simp only [insertEntry]
    split
    · rfl
    · split
      next heq =>
        simp only [List.map_cons, List.foldr_cons, heq]
        omega
      next => rw [List.map_cons, List.foldr_cons, ih, List.map_cons, List.foldr_cons,
        Nat.max_left_comm]

theorem descriptor?_insert (t : Table) (array other : ArrayRef) (cell : Cell) :
    (t.insert array cell).descriptor? other =
      if other = array then some cell.descriptor else t.descriptor? other := by
  rw [descriptor?, find?_insert]
  split <;> rfl

/-- No reference in use is larger than the last. -/
theorem le_lastId {t : Table} {array : ArrayRef} {c : Cell} (h : t.find? array = some c) :
    array.id.toNat ≤ t.lastId := by
  have hmem : (array, c) ∈ t.entries := (lookup_eq_some_iff_mem t.ascending).mp h
  unfold lastId
  generalize t.entries = es at hmem
  induction es with
  | nil => cases hmem
  | cons entry rest ih =>
    rw [List.map_cons, List.foldr_cons]
    rcases List.mem_cons.mp hmem with rfl | hrest
    · exact Nat.le_max_left _ _
    · exact Nat.le_trans (ih hrest) (Nat.le_max_right _ _)

end Table

namespace Store

/-- The reference that follows the last one in use, unless that was the last there is. -/
def nextAfter (last : Nat) : Option UInt32 :=
  if last + 1 < UInt32.size then some (UInt32.ofNat (last + 1)) else none

/-- The store invariant, under the configuration that the card was made with. -/
structure Sound (c : Config) (s : Store) : Prop where
  cells : ∀ {array : ArrayRef} {cell : Cell}, s.table.find? array = some cell → cell.Sound
  null_free : s.table.find? .null = none
  next_eq : s.next = nextAfter s.table.lastId
  capacity_eq : ∀ l, (s.pools.of l).capacity = c.poolCapacity l
  used_eq : ∀ l, (s.pools.of l).used.toNat = s.table.bytesOf l
  used_le : ∀ l, s.table.bytesOf l ≤ (c.poolCapacity l).toNat

variable {c : Config} {s : Store}

theorem Sound.empty (c : Config) : (Store.empty c).Sound c where
  cells := by intro array cell h; cases h
  null_free := rfl
  next_eq := rfl
  capacity_eq := by intro l; cases l <;> rfl
  used_eq := by intro l; cases l <;> rfl
  used_le := by intro l; exact Nat.zero_le _

/-- The tear budget plays no part in the invariant. -/
theorem Sound.withTear (h : s.Sound c) (tear : Option UInt64) :
    Sound c { s with tear := tear } :=
  ⟨h.cells, h.null_free, h.next_eq, h.capacity_eq, h.used_eq, h.used_le⟩

/-- A store stays sound when cells change but keep their descriptors. -/
theorem Sound.mapCells (h : s.Sound c) {f : ArrayRef → Cell → Cell}
    (hd : s.table.KeepsDescriptors f)
    (hs : ∀ {array cell}, s.table.find? array = some cell → (f array cell).Sound) :
    Sound c { s with table := s.table.mapCells f } where
  cells := by
    intro array cell hcell
    rw [Table.find?_mapCells, Option.map_eq_some_iff] at hcell
    obtain ⟨old, hold, rfl⟩ := hcell
    exact hs hold
  null_free := by rw [Table.find?_mapCells, h.null_free]; rfl
  next_eq := by rw [h.next_eq, Table.lastId_mapCells]
  capacity_eq := h.capacity_eq
  used_eq := by
    intro l
    rw [h.used_eq, Table.bytesOf_mapCells hd]
  used_le := by
    intro l
    rw [Table.bytesOf_mapCells hd]
    exact h.used_le l

theorem keepsDescriptors_set {t : Table} {array : ArrayRef} {cell cell' : Cell}
    (hold : t.find? array = some cell) (hd : cell'.descriptor = cell.descriptor) :
    t.KeepsDescriptors fun other old => if other = array then cell' else old := by
  intro other old hother
  dsimp only
  split
  next heq =>
    subst heq
    rw [hold, Option.some.injEq] at hother
    rw [hd, hother]
  next => rfl

theorem Sound.set (h : s.Sound c) {array : ArrayRef} {cell cell' : Cell}
    (hold : s.table.find? array = some cell) (hd : cell'.descriptor = cell.descriptor)
    (hs : cell'.Sound) : Sound c { s with table := s.table.set array cell' } := by
  apply h.mapCells (keepsDescriptors_set hold hd)
  intro other old hother
  split
  next => exact hs
  next => exact h.cells hother

end Store

end SmartCard
