-- SUMMARY: Taking the arrays of an image into a store: when that succeeds, and what the store then holds.
import SmartCard.Proofs.Image.Capture
import SmartCard.Proofs.Memory.Payloads

/-!
# Adopting arrays

Arrays are adopted one by one, each into a store that already holds those before it. Whether all of
them are adopted nevertheless depends on the list as a whole (`Image.adoptArrays_isOk_iff`), and so
does the store that comes out (`Image.Adopted`). Hence the order of the list does not matter
(`Image.adoptArrays_perm`).
-/

namespace SmartCard

variable {c : Config} {s s' : Store}

/-! ## Entries of an image -/

namespace ImageArray

/-- What an entry says its array was made as, if its kind and its memory are known. -/
def descriptor? (a : ImageArray) : Option Descriptor :=
  match Kind.ofCode? a.kind, Lifetime.ofMemoryType? a.memoryType with
  | some kind, some lifetime => some ⟨kind, a.length.toNat, lifetime, a.sensitive⟩
  | _, _ => none

/-- Whether an entry describes an array made as `d`: one that is not too long and, if persistent,
has a payload of the right size. -/
structure Describes (a : ImageArray) (d : Descriptor) : Prop where
  descriptor : a.descriptor? = some d
  length_le : d.length ≤ maxArrayLength
  size : d.lifetime.isPersistent = true → a.data.length = d.byteLength

/-- The cell of an entry that describes an array made as `d`. -/
def cellAs (a : ImageArray) (d : Descriptor) : Cell :=
  if d.lifetime.isPersistent then ⟨d, a.data, a.digest⟩ else .zeroed d

/-- Bytes that an entry takes from the pool of a lifetime. -/
def share (l : Lifetime) (a : ImageArray) : Nat :=
  match a.descriptor? with
  | some d => if d.lifetime = l then d.byteLength else 0
  | none => 0

variable {a : ImageArray} {d : Descriptor} {cell : Cell}

@[simp] theorem descriptor_cellAs (a : ImageArray) (d : Descriptor) :
    (a.cellAs d).descriptor = d := by
  unfold cellAs
  split
  · rfl
  · exact Cell.zeroed_descriptor d

theorem cell_eq_ok_iff : a.cell = .ok cell ↔ ∃ d, a.Describes d ∧ cell = a.cellAs d := by
  unfold ImageArray.cell
  rcases hkind : Kind.ofCode? a.kind with _ | kind
  · have hnone : a.descriptor? = none := by rw [descriptor?, hkind]
    refine ⟨nofun, fun ⟨d, hd, _⟩ => ?_⟩
    rw [hd.descriptor] at hnone
    cases hnone
  rcases hlifetime : Lifetime.ofMemoryType? a.memoryType with _ | lifetime
  · have hnone : a.descriptor? = none := by rw [descriptor?, hkind, hlifetime]
    refine ⟨nofun, fun ⟨d, hd, _⟩ => ?_⟩
    rw [hd.descriptor] at hnone
    cases hnone
  have hsome : a.descriptor? = some ⟨kind, a.length.toNat, lifetime, a.sensitive⟩ := by
    rw [descriptor?, hkind, hlifetime]
  dsimp only
  constructor
  · intro h
    refine ⟨_, ⟨hsome, ?_, ?_⟩, ?_⟩ <;> split at h
    · cases h
    next hlength => exact Nat.not_lt.mp hlength
    · cases h
    · intro hpersistent
      rw [if_pos hpersistent] at h
      split at h
      next hsize => exact hsize
      next => cases h
    · cases h
    · unfold cellAs
      split at h
      next hpersistent =>
        rw [if_pos hpersistent]
        split at h
        next =>
          cases h
          rfl
        next => cases h
      next hpersistent =>
        rw [if_neg hpersistent]
        cases h
        rfl
  · rintro ⟨d, ⟨hd, hlength, hsize⟩, rfl⟩
    rw [hsome, Option.some.injEq] at hd
    subst hd
    rw [if_neg (Nat.not_lt.mpr hlength), cellAs]
    split
    next hpersistent => rw [if_pos (hsize hpersistent)]
    next => rfl

theorem Describes.sound_cellAs (h : a.Describes d) : (a.cellAs d).Sound :=
  sound_cell (cell_eq_ok_iff.mpr ⟨d, h, rfl⟩)

theorem Describes.share_eq (h : a.Describes d) (l : Lifetime) (array : ArrayRef) :
    a.share l = Table.charge l (array, a.cellAs d) := by
  rw [share, h.descriptor, Table.charge]
  simp only [descriptor_cellAs]

end ImageArray

/-! ## Room -/

/-- A pool has room for an array just when the arrays of its lifetime, with the new one, fit its
capacity. -/
theorem Store.Sound.room_iff (h : s.Sound c) {l : Lifetime} {bytes : Nat}
    (hsize : bytes < UInt32.size) :
    ¬(s.pools.of l).available < UInt32.ofNat bytes ↔
      s.table.bytesOf l + bytes ≤ (c.poolCapacity l).toNat := by
  refine ⟨fun hroom => ?_, h.room hsize⟩
  have hused := h.used_eq l
  have hcapacity := h.capacity_eq l
  have hle := h.used_le l
  rw [UInt32.not_lt, UInt32.le_iff_toNat_le, UInt32.toNat_ofNat_of_lt' hsize,
    Pool.toNat_available (by rw [hused, hcapacity]; exact hle), hused, hcapacity] at hroom
  omega

namespace Image

/-! ## Adopting one array after the other -/

/-- Arrays that a store can take in: all of them are described, their references are distinct, not
null and not in use, and the pools have room for all of them together. -/
structure Adoptable (c : Config) (s : Store) (arrays : List ImageArray) : Prop where
  described : ∀ a ∈ arrays, ∃ d, a.Describes d
  nonnull : ∀ a ∈ arrays, a.array ≠ .null
  distinct : (arrays.map ImageArray.array).Nodup
  free : ∀ a ∈ arrays, s.table.find? a.array = none
  room : ∀ l, s.table.bytesOf l + (arrays.map (ImageArray.share l)).sum ≤ (c.poolCapacity l).toNat

/-- The largest reference that is listed, or 0. -/
def lastListed (arrays : List ImageArray) : Nat :=
  (arrays.map fun a => a.array.id.toNat).foldr max 0

/-- What a store holds after it took arrays in. -/
structure Adopted (arrays : List ImageArray) (s s' : Store) : Prop where
  listed : ∀ {a d}, a ∈ arrays → a.Describes d → s'.table.find? a.array = some (a.cellAs d)
  other : ∀ {array}, (∀ a ∈ arrays, a.array ≠ array) →
    s'.table.find? array = s.table.find? array
  bytesOf : ∀ l, s'.table.bytesOf l = s.table.bytesOf l + (arrays.map (ImageArray.share l)).sum
  lastId : s'.table.lastId = max (lastListed arrays) s.table.lastId
  tear : s'.tear = s.tear

variable {a : ImageArray} {more arrays arrays' : List ImageArray} {d : Descriptor}

/-- The first array is adopted, and the others into the store that holds it. -/
theorem adoptArrays_cons_eq_ok_iff :
    adoptArrays s (a :: more) = .ok s' ↔
      ∃ d s₁, a.Describes d ∧ s.adopt a.array (a.cellAs d) = .ok s₁ ∧
        adoptArrays s₁ more = .ok s' := by
  rw [adoptArrays]
  constructor
  · intro h
    rcases hcell : a.cell with e | cell
    · rw [hcell] at h
      cases h
    · rw [hcell] at h
      obtain ⟨d, hd, rfl⟩ := ImageArray.cell_eq_ok_iff.mp hcell
      dsimp only at h
      rcases hadopt : s.adopt a.array (a.cellAs d) with e | s₁
      · rw [hadopt] at h
        cases h
      · rw [hadopt] at h
        exact ⟨d, s₁, hd, hadopt, h⟩
  · rintro ⟨d, s₁, hd, hadopt, hmore⟩
    rw [ImageArray.cell_eq_ok_iff.mpr ⟨d, hd, rfl⟩]
    dsimp only
    rw [hadopt]
    exact hmore

/-- What adopting a single array does to the table. -/
theorem adopted_one (h : s.Sound c) (hd : a.Describes d)
    (hs : s.adopt a.array (a.cellAs d) = .ok s') : Adopted [a] s s' := by
  obtain ⟨_, hfree, _, rfl⟩ := (h.adopt_eq_ok_iff hd.sound_cellAs).mp hs
  refine ⟨?_, ?_, ?_, ?_, rfl⟩
  · intro b e hb he
    rw [List.mem_singleton.mp hb] at he ⊢
    have heq : d = e := Option.some.inj (hd.descriptor.symm.trans he.descriptor)
    rw [← heq]
    exact (Table.find?_insert _ _ _ _).trans (if_pos rfl)
  · intro array hne
    exact (Table.find?_insert _ _ _ _).trans (if_neg fun heq => hne a (.head _) heq.symm)
  · intro l
    simp only [List.map_cons, List.map_nil, List.sum_cons, List.sum_nil, Nat.add_zero]
    rw [Table.bytesOf_insert l hfree, ← hd.share_eq, Nat.add_comm]
  · simp only [Table.lastId_insert, lastListed, List.map_cons, List.map_nil, List.foldr_cons,
      List.foldr_nil, Nat.max_zero]

theorem Adopted.cons {s₁ : Store} (hfirst : Adopted [a] s s₁) (hmore : Adopted more s₁ s')
    (hdistinct : ∀ b ∈ more, b.array ≠ a.array) : Adopted (a :: more) s s' where
  listed := by
    intro b d hb hd
    rcases List.mem_cons.mp hb with rfl | hb
    · rw [hmore.other hdistinct, hfirst.listed (.head _) hd]
    · exact hmore.listed hb hd
  other := by
    intro array hne
    rw [hmore.other fun b hb => hne b (.tail _ hb),
      hfirst.other (List.forall_mem_singleton.mpr (hne a (.head _)))]
  bytesOf := by
    intro l
    rw [hmore.bytesOf, hfirst.bytesOf]
    simp only [List.map_cons, List.map_nil, List.sum_cons, List.sum_nil]
    omega
  lastId := by
    rw [hmore.lastId, hfirst.lastId]
    simp only [lastListed, List.map_cons, List.map_nil, List.foldr_cons, List.foldr_nil]
    omega
  tear := hmore.tear.trans hfirst.tear

/-- Arrays that were adopted were adoptable, and the store now holds them. -/
theorem adopted_of_adoptArrays (h : s.Sound c) (hs : adoptArrays s arrays = .ok s') :
    Adoptable c s arrays ∧ Adopted arrays s s' := by
  induction arrays generalizing s with
  | nil =>
    cases hs
    exact ⟨⟨nofun, nofun, .nil, nofun, h.used_le⟩, ⟨nofun, fun _ => rfl, fun _ => rfl,
      (Nat.zero_max _).symm, rfl⟩⟩
  | cons a more ih =>
    obtain ⟨d, s₁, hd, hadopt, hmore⟩ := adoptArrays_cons_eq_ok_iff.mp hs
    obtain ⟨hnull, hfree, _, _⟩ := (h.adopt_eq_ok_iff hd.sound_cellAs).mp hadopt
    obtain ⟨hadoptable, hadopted⟩ := ih (h.adopt hd.sound_cellAs hadopt) hmore
    have hfirst := adopted_one h hd hadopt
    have hdistinct : ∀ b ∈ more, b.array ≠ a.array := by
      intro b hb heq
      have hused := hadoptable.free b hb
      rw [heq, hfirst.listed (.head _) hd] at hused
      cases hused
    have hall := hfirst.cons hadopted hdistinct
    refine ⟨⟨?_, ?_, ?_, ?_, ?_⟩, hall⟩
    · exact List.forall_mem_cons.mpr ⟨⟨d, hd⟩, hadoptable.described⟩
    · exact List.forall_mem_cons.mpr ⟨hnull, hadoptable.nonnull⟩
    · rw [List.map_cons, List.nodup_cons]
      refine ⟨fun hmem => ?_, hadoptable.distinct⟩
      obtain ⟨b, hb, heq⟩ := List.mem_map.mp hmem
      exact hdistinct b hb heq
    · refine List.forall_mem_cons.mpr ⟨hfree, fun b hb => ?_⟩
      rw [← hfirst.other (List.forall_mem_singleton.mpr (hdistinct b hb).symm),
        hadoptable.free b hb]
    · intro l
      have hroom := hadoptable.room l
      rw [hfirst.bytesOf] at hroom
      simp only [List.map_cons, List.map_nil, List.sum_cons, List.sum_nil] at hroom ⊢
      omega

/-- The first of adoptable arrays is adopted, and the others are still adoptable then. -/
theorem Adoptable.adopt (hs : s.Sound c) (h : Adoptable c s (a :: more)) :
    ∃ d s₁, a.Describes d ∧ s.adopt a.array (a.cellAs d) = .ok s₁ ∧ Adoptable c s₁ more := by
  obtain ⟨d, hd⟩ := h.described a (.head _)
  have hsound := hd.sound_cellAs
  have hdistinct := List.nodup_cons.mp h.distinct
  have hroom : s.table.bytesOf d.lifetime + d.byteLength ≤ (c.poolCapacity d.lifetime).toNat := by
    have hsum := h.room d.lifetime
    rw [List.map_cons, List.sum_cons, hd.share_eq _ a.array, Table.charge] at hsum
    simp only [ImageArray.descriptor_cellAs, if_true] at hsum
    omega
  have hadopt := (hs.adopt_eq_ok_iff hsound).mpr ⟨h.nonnull a (.head _), h.free a (.head _),
    by simpa using (hs.room_iff (Descriptor.byteLength_lt hd.length_le)).mpr hroom, rfl⟩
  have hfirst := adopted_one hs hd hadopt
  refine ⟨d, _, hd, hadopt, fun b hb => h.described b (.tail _ hb),
    fun b hb => h.nonnull b (.tail _ hb), hdistinct.2, fun b hb => ?_, fun l => ?_⟩
  · rw [hfirst.other (List.forall_mem_singleton.mpr fun heq =>
      hdistinct.1 (List.mem_map.mpr ⟨b, hb, heq.symm⟩)), h.free b (.tail _ hb)]
  · have hsum := h.room l
    rw [hfirst.bytesOf]
    simp only [List.map_cons, List.map_nil, List.sum_cons, List.sum_nil] at hsum ⊢
    omega

theorem adoptArrays_isOk_iff (h : s.Sound c) :
    (∃ s', adoptArrays s arrays = .ok s') ↔ Adoptable c s arrays := by
  refine ⟨fun ⟨s', hs⟩ => (adopted_of_adoptArrays h hs).1, fun hadoptable => ?_⟩
  induction arrays generalizing s with
  | nil => exact ⟨s, rfl⟩
  | cons a more ih =>
    obtain ⟨d, s₁, hd, hadopt, hmore⟩ := hadoptable.adopt h
    obtain ⟨s', hs'⟩ := ih (h.adopt hd.sound_cellAs hadopt) hmore
    exact ⟨s', adoptArrays_cons_eq_ok_iff.mpr ⟨d, s₁, hd, hadopt, hs'⟩⟩

/-! ## Order -/

theorem Adoptable.perm (h : Adoptable c s arrays) (hperm : arrays.Perm arrays') :
    Adoptable c s arrays' where
  described := fun a ha => h.described a (hperm.mem_iff.mpr ha)
  nonnull := fun a ha => h.nonnull a (hperm.mem_iff.mpr ha)
  distinct := (hperm.map _).nodup_iff.mp h.distinct
  free := fun a ha => h.free a (hperm.mem_iff.mpr ha)
  room := fun l => by
    rw [← (hperm.map (ImageArray.share l)).sum_nat]
    exact h.room l

/-- Adopting the same arrays in another order makes the same store. -/
theorem adoptArrays_perm (h : s.Sound c) (hperm : arrays.Perm arrays')
    (hs : adoptArrays s arrays = .ok s') : adoptArrays s arrays' = .ok s' := by
  obtain ⟨hadoptable, hadopted⟩ := adopted_of_adoptArrays h hs
  obtain ⟨s'', hs''⟩ := (adoptArrays_isOk_iff h).mpr (hadoptable.perm hperm)
  obtain ⟨_, hadopted'⟩ := adopted_of_adoptArrays h hs''
  have htable : s''.table = s'.table := by
    refine Table.ext fun array => ?_
    by_cases hlisted : ∃ a ∈ arrays, a.array = array
    · obtain ⟨a, ha, rfl⟩ := hlisted
      obtain ⟨d, hd⟩ := hadoptable.described a ha
      rw [hadopted.listed ha hd, hadopted'.listed (hperm.mem_iff.mp ha) hd]
    · have hother : ∀ a ∈ arrays, a.array ≠ array := fun a ha heq => hlisted ⟨a, ha, heq⟩
      rw [hadopted.other hother,
        hadopted'.other fun a ha => hother a (hperm.mem_iff.mpr ha)]
  rw [hs'', (sound_adoptArrays h hs'').ext (sound_adoptArrays h hs) htable
    (hadopted'.tear.trans hadopted.tear.symm)]

/-! ## Images of a memory -/

variable {c' : Config} {m m' : Memory}

theorem mem_capture_iff {a : ImageArray} :
    a ∈ (capture m).arrays ↔
      ∃ array cell, m.store.table.find? array = some cell ∧ captureArray array cell = a := by
  unfold capture
  simp only [List.mem_map, Prod.exists]
  refine exists₂_congr fun array cell => and_congr_left fun _ => ?_
  exact (Table.lookup_eq_some_iff_mem m.store.table.ascending).symm

/-- A card that is powered up from the image of a memory, under whatever configuration, holds the
arrays that the memory has after a recovery. -/
theorem table_powerUp_capture (h : m.Sound c) (hm : powerUp c' (capture m) = .ok m') :
    m'.store.table = m.recovered.store.table := by
  obtain ⟨_, s, s', hs, hrestore, rfl⟩ := powerUp_eq_ok_iff.mp hm
  rw [entries_captured h] at hrestore
  have hadopted := (adopted_of_adoptArrays (.empty c') hs).2
  have hsame : ∀ array, s.table.find? array = m.store.repowered.table.find? array := by
    intro array
    show s.table.find? array = (m.store.clearTransients fun _ => true).table.find? array
    rw [Store.find?_clearTransients]
    rcases hfound : m.store.table.find? array with _ | cell
    · refine hadopted.other fun a ha heq => ?_
      obtain ⟨other, cell, hother, rfl⟩ := mem_capture_iff.mp ha
      cases heq
      rw [show (captureArray other cell).array = other from rfl, hother] at hfound
      cases hfound
    · obtain ⟨d, hd, hcell⟩ :=
        ImageArray.cell_eq_ok_iff.mp ((h.store.cells hfound).cell_captureArray array)
      rw [Option.map_some, hcell]
      exact hadopted.listed (mem_capture_iff.mpr ⟨array, cell, hfound, rfl⟩) hd
  -- Restoring looks only at the cells, which are those of the recovered memory before its rollback.
  have hrestored := h.store.repowered.restored_undone fun he =>
    (h.entries he).of_descriptor? m.store.descriptor?_repowered
  refine Table.ext fun array => ?_
  have hrecovered : m.recovered.store.table =
      (m.store.repowered.undone m.transaction.log.entries).table := by
    unfold Store.repowered
    rw [Store.undone_withTear, h.store.undone_clearTransients h.entries]
    rfl
  rw [hrecovered, (Store.rewound_of_restore hrestored.exec).cell,
    (Store.rewound_of_restore hrestore).cell, hsame]

end Image

end SmartCard
