-- SUMMARY: What making an array does to a store: when there is room for it, its reference, and the pool it is charged to.
import SmartCard.Proofs.Store.Updates

/-!
# Allocation

The pools and the next reference of a sound store follow from what its arrays were made as
(`Store.Sound.next_eq_of_descriptor?`, `Store.Sound.pools_eq_of_descriptor?`), so that nothing but a
new array changes them. A new array fails for want of a reference just when the last one there is
belongs to an array, and then for want of bytes in its pool (`Store.Sound.allocation`).
-/

namespace SmartCard

/-- The last reference there is. -/
def ArrayRef.last : ArrayRef := ⟨4294967295⟩

namespace Table

/-! ## What the accounts depend on -/

/-- Tables in which the arrays were made as the same differ in payloads and digests only. -/
theorem mapCells_zeroed_eq {t u : Table} (h : t.descriptor? = u.descriptor?) :
    (t.mapCells fun _ cell => .zeroed cell.descriptor) =
      u.mapCells fun _ cell => .zeroed cell.descriptor := by
  have hblank : ∀ (t : Table) array,
      (t.mapCells fun _ cell => .zeroed cell.descriptor).find? array =
        (t.descriptor? array).map Cell.zeroed := by
    intro t array
    rw [find?_mapCells, descriptor?, Option.map_map]
    rfl
  refine Table.ext fun array => ?_
  rw [hblank, hblank, h]

theorem keepsDescriptors_zeroed (t : Table) :
    t.KeepsDescriptors fun _ cell => .zeroed cell.descriptor := fun _ => Cell.zeroed_descriptor _

theorem lastId_eq_of_descriptor? {t u : Table} (h : t.descriptor? = u.descriptor?) :
    t.lastId = u.lastId := by
  rw [← lastId_mapCells t, mapCells_zeroed_eq h, lastId_mapCells]

theorem bytesOf_eq_of_descriptor? {t u : Table} (h : t.descriptor? = u.descriptor?)
    (l : Lifetime) : t.bytesOf l = u.bytesOf l := by
  rw [← bytesOf_mapCells t.keepsDescriptors_zeroed, mapCells_zeroed_eq h,
    bytesOf_mapCells u.keepsDescriptors_zeroed]

/-- The last reference in use is that of an array. -/
theorem exists_lastId {t : Table} (h : t.lastId ≠ 0) :
    ∃ array cell, t.find? array = some cell ∧ array.id.toNat = t.lastId := by
  have hmem : ∃ entry ∈ t.entries, entry.1.id.toNat = t.lastId := by
    unfold lastId at h ⊢
    generalize t.entries = es at h ⊢
    induction es with
    | nil => exact absurd rfl h
    | cons entry rest ih =>
      rw [List.map_cons, List.foldr_cons] at h ⊢
      by_cases hle : ((rest.map fun entry => entry.1.id.toNat).foldr max 0) ≤ entry.1.id.toNat
      · exact ⟨entry, List.mem_cons_self, (Nat.max_eq_left hle).symm⟩
      · have hrest := Nat.max_eq_right (Nat.le_of_not_le hle)
        rw [hrest] at h ⊢
        obtain ⟨last, hlast, heq⟩ := ih h
        exact ⟨last, List.mem_cons_of_mem _ hlast, heq⟩
  obtain ⟨⟨array, cell⟩, hentry, heq⟩ := hmem
  exact ⟨array, cell, (lookup_eq_some_iff_mem t.ascending).mpr hentry, heq⟩

end Table

namespace Store

variable {c : Config} {s s' : Store} {d : Descriptor}

/-- Where arrays were made as the same, the next reference is the same. -/
theorem Sound.next_eq_of_descriptor? (h : s.Sound c) (h' : s'.Sound c)
    (hd : s'.descriptor? = s.descriptor?) : s'.next = s.next := by
  rw [h.next_eq, h'.next_eq, Table.lastId_eq_of_descriptor? hd]

/-- Where arrays were made as the same, the same is charged. -/
theorem Sound.pools_eq_of_descriptor? (h : s.Sound c) (h' : s'.Sound c)
    (hd : s'.descriptor? = s.descriptor?) (l : Lifetime) : s'.pools.of l = s.pools.of l := by
  have hused : (s'.pools.of l).used = (s.pools.of l).used := by
    rw [← UInt32.toNat_inj, h.used_eq, h'.used_eq, Table.bytesOf_eq_of_descriptor? hd]
  have hcapacity := (h'.capacity_eq l).trans (h.capacity_eq l).symm
  generalize s'.pools.of l = p at hused hcapacity
  generalize s.pools.of l = q at hused hcapacity
  cases p
  cases q
  cases hused
  cases hcapacity
  rfl

/-! ## Room -/

/-- Whether the last reference there is belongs to an array. -/
def Exhausted (s : Store) : Prop := s.descriptor? .last ≠ none

/-- Whether a store has room for an array: its bytes are left in the pool of its lifetime, and a
reference is left. -/
structure Admits (c : Config) (s : Store) (d : Descriptor) : Prop where
  room : d.byteLength ≤ (c.poolCapacity d.lifetime).toNat - s.table.bytesOf d.lifetime
  reference : ¬s.Exhausted

/-- No reference is left just when the last one there is belongs to an array. -/
theorem Sound.next_eq_none_iff (h : s.Sound c) : s.next = none ↔ s.Exhausted := by
  rw [h.next_eq, nextAfter]
  constructor
  · intro hnone
    have hlarge : ¬s.table.lastId + 1 < UInt32.size := by
      intro hlt
      rw [if_pos hlt] at hnone
      cases hnone
    obtain ⟨array, cell, hfound, heq⟩ := Table.exists_lastId (t := s.table) fun hzero => by
      rw [hzero] at hlarge
      exact hlarge (by decide)
    have hlt := array.id.toNat_lt
    have hlast : array = .last := by
      refine ArrayRef.ext (UInt32.toNat_inj.mp ?_)
      show array.id.toNat = 4294967295
      simp only [UInt32.size] at hlarge
      omega
    show s.table.descriptor? .last ≠ none
    rw [← hlast, Table.descriptor?, hfound]
    exact Option.some_ne_none _
  · intro hexhausted
    obtain ⟨d, hd⟩ := Option.ne_none_iff_exists'.mp hexhausted
    obtain ⟨cell, hfound, _⟩ := Table.descriptor?_eq_some_iff.mp hd
    have hle : 4294967295 ≤ s.table.lastId := Table.le_lastId hfound
    rw [if_neg]
    simp only [UInt32.size]
    omega

/-- What a new array adds to a store: a reference beyond all others, and its bytes in the pool of
its lifetime. -/
structure Adds (d : Descriptor) (s : Store) (array : ArrayRef) (s' : Store) : Prop where
  nonnull : array ≠ .null
  beyond : ∀ other, s.descriptor? other ≠ none → other.id < array.id
  descriptor : ∀ other, s'.descriptor? other = if other = array then some d else s.descriptor? other
  used : ∀ l, (s'.pools.of l).used.toNat =
    (s.pools.of l).used.toNat + if l = d.lifetime then d.byteLength else 0

theorem Adds.congr {array : ArrayRef} {s'' : Store} (h : Adds d s array s')
    (hd : s''.descriptor? = s'.descriptor?) (hsound : s'.Sound c) (hsound' : s''.Sound c) :
    Adds d s array s'' where
  nonnull := h.nonnull
  beyond := h.beyond
  descriptor := fun other => (congrFun hd other).trans (h.descriptor other)
  used := fun l => by rw [hsound.pools_eq_of_descriptor? hsound' hd, h.used]

/-- How making an array ends. -/
inductive Allocation (c : Config) (s : Store) (d : Descriptor) :
    Except Fault (ArrayRef × Store) → Prop where
  | made {array : ArrayRef} {s' : Store} :
      s.Admits c d → s'.Sound c → Adds d s array s' → Allocation c s d (.ok (array, s'))
  | exhausted : s.Exhausted → Allocation c s d (.error .referencesExhausted)
  | full {bytes available : UInt32} : ¬s.Exhausted → ¬s.Admits c d →
      Allocation c s d (.error (.poolExhausted d.lifetime bytes available))

theorem Sound.room_iff_available (h : s.Sound c) (hlength : d.length ≤ maxArrayLength) :
    ¬(s.pools.of d.lifetime).available < UInt32.ofNat d.byteLength ↔
      d.byteLength ≤ (c.poolCapacity d.lifetime).toNat - s.table.bytesOf d.lifetime := by
  have hused := h.used_eq d.lifetime
  have hcapacity := h.capacity_eq d.lifetime
  have hle := h.used_le d.lifetime
  rw [UInt32.not_lt, UInt32.le_iff_toNat_le,
    UInt32.toNat_ofNat_of_lt' (Descriptor.byteLength_lt hlength),
    Pool.toNat_available (by rw [hused, hcapacity]; exact hle), hused, hcapacity]

theorem Sound.adds_allocate (h : s.Sound c) {array : ArrayRef}
    (hs : s.allocate d = .ok (array, s')) : Adds d s array s' := by
  obtain ⟨hlength, hnext, _, hs'⟩ := h.allocate_eq_ok_iff.mp hs
  obtain ⟨hfree, hid, hlast⟩ := h.next_free hnext
  refine ⟨fun heq => hid (congrArg ArrayRef.id heq), fun other hother => ?_,
    h.descriptor?_allocate hs, fun l => ?_⟩
  · obtain ⟨d', hd'⟩ := Option.ne_none_iff_exists'.mp hother
    obtain ⟨cell, hfound, _⟩ := Table.descriptor?_eq_some_iff.mp hd'
    have hle := Table.le_lastId hfound
    rw [UInt32.lt_iff_toNat_lt]
    omega
  · rw [(h.allocate hs).used_eq, h.used_eq, hs']
    dsimp only
    rw [Table.bytesOf_insert l hfree, Table.charge, Cell.zeroed_descriptor, Nat.add_comm]
    simp only [eq_comm]

/-- An array is made if there is room for it. -/
theorem Sound.allocation (h : s.Sound c) (hlength : d.length ≤ maxArrayLength) :
    Allocation c s d (s.allocate d) := by
  rcases hs : s.allocate d with e | ⟨array, s'⟩
  · rcases hnext : s.next with _ | id
    · have he : e = .referencesExhausted := by
        rw [Store.allocate, if_neg (Nat.not_lt.mpr hlength), freeRef, hnext] at hs
        exact (Except.error.inj hs).symm
      rw [he]
      exact .exhausted (h.next_eq_none_iff.mp hnext)
    · have hleft : ¬s.Exhausted := by
        rw [← h.next_eq_none_iff, hnext]
        exact Option.some_ne_none _
      rw [Store.allocate, if_neg (Nat.not_lt.mpr hlength), freeRef, hnext] at hs
      dsimp only at hs
      rw [(h.next_free hnext).1] at hs
      dsimp only at hs
      split at hs
      next hfull =>
        cases hs
        refine .full hleft fun hadmits => ?_
        exact (h.room_iff_available hlength).mpr hadmits.room hfull
      next => cases hs
  · obtain ⟨_, hnext, hroom, _⟩ := h.allocate_eq_ok_iff.mp hs
    have hleft : ¬s.Exhausted := by
      rw [← h.next_eq_none_iff, hnext]
      exact Option.some_ne_none _
    exact .made ⟨(h.room_iff_available hlength).mp hroom, hleft⟩ (h.allocate hs)
      (h.adds_allocate hs)

end Store

end SmartCard
