-- SUMMARY: Which images a card can be powered up from, and what card comes out.
import SmartCard.Card
import SmartCard.Proofs.Image.Adoption
import SmartCard.Proofs.Image.RoundTrip

/-!
# Well-formed images

Powering up checks an image piece by piece: the format, each array as it is adopted, and each
pending entry as it is restored. Together the checks come to a condition on the image alone
(`Image.WellFormed`), and what comes out of them can be read off the image as well
(`Image.PoweredUp`).
-/

namespace SmartCard

variable {c : Config} {s s' : Store}

namespace Image

/-- The images from which a card with a configuration can be powered up. -/
structure WellFormed (c : Config) (image : Image) : Prop where
  format : image.format = formatVersion
  described : ∀ a ∈ image.arrays, ∃ d, a.Describes d
  nonnull : ∀ a ∈ image.arrays, a.array ≠ .null
  distinct : (image.arrays.map ImageArray.array).Nodup
  room : ∀ l, (image.arrays.map (ImageArray.share l)).sum ≤ (c.poolCapacity l).toNat
  pending : ∀ u ∈ image.pending, ∃ a ∈ image.arrays, ∃ d, a.Describes d ∧ a.array = u.array ∧
    u.offset.toNat + u.before.length ≤ d.byteLength

/-- A payload of the array with the pending entries of an image applied to it, the last one first.
-/
def settle (image : Image) (array : ArrayRef) (payload : List UInt8) : List UInt8 :=
  image.pending.foldr (fun u payload => u.entry.onto array payload) payload

/-- What an image says of the memory that is powered up from it. -/
structure PoweredUp (image : Image) (m : Memory) : Prop where
  descriptor : ∀ {array d}, m.store.descriptor? array = some d ↔
    ∃ a ∈ image.arrays, a.array = array ∧ a.Describes d
  payload : ∀ {a d}, a ∈ image.arrays → a.Describes d → d.lifetime.isPersistent = true →
    m.store.payload? a.array = some (image.settle a.array a.data)
  used : ∀ l, (m.store.pools.of l).used.toNat = (image.arrays.map (ImageArray.share l)).sum
  next : ∀ id, m.store.next = some id → id.toNat = lastListed image.arrays + 1
  exhausted : m.store.next = none ↔ ∃ a ∈ image.arrays, a.array.id = 4294967295

variable {image image' : Image} {m : Memory} {arrays : List ImageArray}

/-! ## The listed arrays -/

theorem adoptable_empty_iff :
    Adoptable c (.empty c) arrays ↔
      (∀ a ∈ arrays, ∃ d, a.Describes d) ∧ (∀ a ∈ arrays, a.array ≠ .null) ∧
        (arrays.map ImageArray.array).Nodup ∧
        ∀ l, (arrays.map (ImageArray.share l)).sum ≤ (c.poolCapacity l).toNat := by
  have hbytes : ∀ l, (Store.empty c).table.bytesOf l = 0 := fun _ => rfl
  constructor
  · rintro ⟨hdescribed, hnonnull, hdistinct, _, hroom⟩
    refine ⟨hdescribed, hnonnull, hdistinct, fun l => ?_⟩
    have := hroom l
    rwa [hbytes, Nat.zero_add] at this
  · rintro ⟨hdescribed, hnonnull, hdistinct, hroom⟩
    refine ⟨hdescribed, hnonnull, hdistinct, fun _ _ => rfl, fun l => ?_⟩
    rw [hbytes, Nat.zero_add]
    exact hroom l

/-- The store of a new card has the arrays that it adopted and no others. -/
theorem Adopted.descriptor?_iff (hadoptable : Adoptable c (.empty c) arrays)
    (h : Adopted arrays (.empty c) s) {array : ArrayRef} {d : Descriptor} :
    s.descriptor? array = some d ↔ ∃ a ∈ arrays, a.array = array ∧ a.Describes d := by
  rw [Store.descriptor?, Table.descriptor?_eq_some_iff]
  constructor
  · rintro ⟨cell, hfound, rfl⟩
    by_cases hlisted : ∃ a ∈ arrays, a.array = array
    · obtain ⟨a, ha, rfl⟩ := hlisted
      obtain ⟨d, hd⟩ := hadoptable.described a ha
      rw [h.listed ha hd, Option.some.injEq] at hfound
      refine ⟨a, ha, rfl, ?_⟩
      rw [← hfound, ImageArray.descriptor_cellAs]
      exact hd
    · rw [h.other fun a ha heq => hlisted ⟨a, ha, heq⟩] at hfound
      cases hfound
  · rintro ⟨a, ha, rfl, hd⟩
    exact ⟨_, h.listed ha hd, ImageArray.descriptor_cellAs a d⟩

/-- All listed references but the last there is leave one to hand out next. -/
theorem le_lastListed_iff {n : Nat} (hn : 0 < n) :
    n ≤ lastListed arrays ↔ ∃ a ∈ arrays, n ≤ a.array.id.toNat := by
  induction arrays with
  | nil => simp [lastListed, Nat.not_le.mpr hn]
  | cons a more ih =>
    have hmax : n ≤ lastListed (a :: more) ↔ n ≤ a.array.id.toNat ∨ n ≤ lastListed more := by
      show n ≤ max a.array.id.toNat (lastListed more) ↔ _
      omega
    rw [hmax, ih]
    simp

theorem nextAfter_eq_none_iff :
    Store.nextAfter (lastListed arrays) = none ↔ ∃ a ∈ arrays, a.array.id = 4294967295 := by
  have hlast : Store.nextAfter (lastListed arrays) = none ↔ 4294967295 ≤ lastListed arrays := by
    unfold Store.nextAfter
    rw [ite_eq_right_iff, show UInt32.size = 4294967296 from rfl]
    simp only [reduceCtorEq, imp_false]
    omega
  rw [hlast, le_lastListed_iff (by decide)]
  refine exists_congr fun a => and_congr_right fun _ => ?_
  rw [← UInt32.toNat_inj, show (4294967295 : UInt32).toNat = 4294967295 from rfl]
  have hlt := a.array.id.toNat_lt
  omega

theorem nextAfter_eq_some {last : Nat} {id : UInt32} (h : Store.nextAfter last = some id) :
    id.toNat = last + 1 := by
  unfold Store.nextAfter at h
  split at h
  next hlt =>
    cases h
    exact UInt32.toNat_ofNat_of_lt' hlt
  next => cases h

/-! ## Powering up -/

/-- The pending entries are restored just when each lies within a listed array. -/
theorem restore_pending_iff (hs : adoptArrays (.empty c) image.arrays = .ok s) :
    (∃ s', (UndoLog.restore (image.pending.reverse.map ImageUndo.entry)).exec s = (.ok (), s')) ↔
      ∀ u ∈ image.pending, ∃ a ∈ image.arrays, ∃ d, a.Describes d ∧ a.array = u.array ∧
        u.offset.toNat + u.before.length ≤ d.byteLength := by
  obtain ⟨hadoptable, hadopted⟩ := adopted_of_adoptArrays (.empty c) hs
  rw [Store.exec_restore_isOk_iff (sound_adoptArrays (.empty c) hs), List.forall_mem_map]
  simp only [List.mem_reverse]
  refine forall₂_congr fun u _ => ?_
  constructor
  · rintro ⟨d, hd, hfits⟩
    obtain ⟨a, ha, harray, hdescribes⟩ := (hadopted.descriptor?_iff hadoptable).mp hd
    exact ⟨a, ha, d, hdescribes, harray, hfits⟩
  · rintro ⟨a, ha, d, hdescribes, harray, hfits⟩
    exact ⟨d, (hadopted.descriptor?_iff hadoptable).mpr ⟨a, ha, harray, hdescribes⟩, hfits⟩

/-- A card can be powered up from the well-formed images. -/
theorem powerUp_isOk_iff : (∃ m, powerUp c image = .ok m) ↔ image.WellFormed c := by
  constructor
  · rintro ⟨m, hm⟩
    obtain ⟨hformat, s, s', hs, hrestore, _⟩ := powerUp_eq_ok_iff.mp hm
    obtain ⟨hdescribed, hnonnull, hdistinct, hroom⟩ :=
      adoptable_empty_iff.mp (adopted_of_adoptArrays (.empty c) hs).1
    exact ⟨hformat, hdescribed, hnonnull, hdistinct, hroom,
      (restore_pending_iff hs).mp ⟨s', hrestore⟩⟩
  · intro h
    obtain ⟨s, hs⟩ := (adoptArrays_isOk_iff (.empty c)).mpr
      (adoptable_empty_iff.mpr ⟨h.described, h.nonnull, h.distinct, h.room⟩)
    obtain ⟨s', hs'⟩ := (restore_pending_iff hs).mpr h.pending
    exact ⟨⟨s', .idle c⟩, powerUp_eq_ok_iff.mpr ⟨h.format, s, s', hs, hs', rfl⟩⟩

/-- A listed array comes up with its pending entries written back onto it. -/
theorem find?_powerUp (h : powerUp c image = .ok m) {a : ImageArray} (ha : a ∈ image.arrays)
    {d : Descriptor} (hd : a.Describes d) :
    m.store.table.find? a.array =
      some ((a.cellAs d).rewound a.array (image.pending.reverse.map ImageUndo.entry)) := by
  obtain ⟨_, s, s', hs, hrestore, rfl⟩ := powerUp_eq_ok_iff.mp h
  have hadopted := (adopted_of_adoptArrays (.empty c) hs).2
  show s'.table.find? a.array = _
  rw [(Store.rewound_of_restore hrestore).cell, hadopted.listed ha hd, Option.map_some]

/-- The memory that comes out is the one that the image describes. -/
theorem poweredUp_of_powerUp (h : powerUp c image = .ok m) : image.PoweredUp m := by
  obtain ⟨_, s, s', hs, hrestore, rfl⟩ := powerUp_eq_ok_iff.mp h
  obtain ⟨hadoptable, hadopted⟩ := adopted_of_adoptArrays (.empty c) hs
  have hrewound := Store.rewound_of_restore hrestore
  have hsound := sound_adoptArrays (.empty c) hs
  have hlast : s.table.lastId = lastListed image.arrays := by
    rw [hadopted.lastId]
    exact Nat.max_zero _
  have hnext : s'.next = Store.nextAfter (lastListed image.arrays) := by
    rw [hrewound.next, hsound.next_eq, hlast]
  refine ⟨?_, ?_, ?_, ?_, ?_⟩
  · intro array d
    show s'.descriptor? array = some d ↔ _
    rw [hrewound.descriptor]
    exact hadopted.descriptor?_iff hadoptable
  · intro a d ha hdescribes hpersistent
    rw [Store.payload?, find?_powerUp h ha hdescribes, Option.map_some, Cell.payload_rewound,
      ImageArray.cellAs, if_pos hpersistent, List.foldl_map, List.foldl_reverse]
    rfl
  · intro l
    show (s'.pools.of l).used.toNat = _
    rw [hrewound.pools, hsound.used_eq, hadopted.bytesOf]
    exact Nat.zero_add _
  · intro id hid
    exact nextAfter_eq_some (hnext.symm.trans hid)
  · show s'.next = none ↔ _
    rw [hnext]
    exact nextAfter_eq_none_iff

/-- The order in which an image lists its arrays does not matter. -/
theorem powerUp_perm (hformat : image'.format = image.format)
    (hperm : image'.arrays.Perm image.arrays) (hpending : image'.pending = image.pending)
    (h : powerUp c image = .ok m) : powerUp c image' = .ok m := by
  obtain ⟨hversion, s, s', hs, hrestore, rfl⟩ := powerUp_eq_ok_iff.mp h
  refine powerUp_eq_ok_iff.mpr ⟨hformat.trans hversion, s, s',
    adoptArrays_perm (.empty c) hperm.symm hs, ?_, rfl⟩
  rw [hpending]
  exact hrestore

end Image

/-! ## Restoring cards -/

namespace Card

/-- A card is restored under a valid configuration from bytes that hold an image from which it can be
powered up. -/
theorem exec_restore_eq_ok_iff {bytes : List UInt8} {card card' : Card} :
    (restore c bytes).exec card = (.ok (), card') ↔
      c.validate = .ok () ∧ ∃ image m, Image.ofBytes bytes = .ok image ∧
        Image.powerUp c image = .ok m ∧ card' = ⟨c, m⟩ := by
  unfold Act.exec restore
  rcases hvalid : c.validate with e | _
  · simp
  · rcases hread : Image.ofBytes bytes with e | image
    · simp
    · rcases hm : Image.powerUp c image with e | m
      · simp [hm]
      · simp [hm, eq_comm]

theorem exec_restore_of_decode {bytes : List UInt8} {image : Image}
    {card card' : Card} (hsize : bytes.length ≤ Image.maxBytes)
    (hdecode : Image.decode? bytes = some image) :
    (restore c bytes).exec card = (.ok (), card') ↔
      c.validate = .ok () ∧ ∃ m, Image.powerUp c image = .ok m ∧ card' = ⟨c, m⟩ := by
  have hread : Image.ofBytes bytes = .ok image := by
    rw [Image.ofBytes, if_neg (Nat.not_lt.mpr hsize), hdecode]
  simp [exec_restore_eq_ok_iff, hread]

/-- Restoring accepts exactly the well-formed images, under a configuration that is valid. The card
that comes up is the one that the image describes, its persistent payloads being the listed ones
with the pending entries applied to them, the last one first; and an image that lists the same
arrays in another order gives the same card. -/
theorem restore_accepts_wellFormed {bytes : List UInt8} {image : Image}
    (hsize : bytes.length ≤ Image.maxBytes) (hdecode : Image.decode? bytes = some image)
    (card : Card) :
    (((restore c bytes).exec card).1 = .ok () ↔
      c.validate = .ok () ∧ image.WellFormed c) ∧
    ∀ {card'}, (restore c bytes).exec card = (.ok (), card') →
      card'.config = c ∧ image.PoweredUp card'.memory ∧
      ∀ {bytes' image'}, bytes'.length ≤ Image.maxBytes → Image.decode? bytes' = some image' →
        image'.format = image.format → image'.arrays.Perm image.arrays →
        image'.pending = image.pending →
        (restore c bytes').exec card = (.ok (), card') := by
  constructor
  · rw [← Image.powerUp_isOk_iff]
    constructor
    · intro hok
      obtain ⟨hvalid, m, hm, _⟩ := (exec_restore_of_decode hsize hdecode).mp (Prod.ext hok rfl)
      exact ⟨hvalid, m, hm⟩
    · rintro ⟨hvalid, m, hm⟩
      exact congrArg Prod.fst ((exec_restore_of_decode hsize hdecode).mpr ⟨hvalid, m, hm, rfl⟩)
  · intro card' hrestored
    obtain ⟨hvalid, m, hm, rfl⟩ := (exec_restore_of_decode hsize hdecode).mp hrestored
    refine ⟨rfl, Image.poweredUp_of_powerUp hm, ?_⟩
    intro bytes' image' hsize' hdecode' hformat hperm hpending
    exact (exec_restore_of_decode hsize' hdecode').mpr
      ⟨hvalid, m, Image.powerUp_perm hformat hperm hpending hm, rfl⟩

/-- The image of two arrays, listed in descending order. The one with the last reference there is
has two pending entries, of which the first covers a byte of the second. -/
def crossedImage : Image where
  format := 1
  arrays := [⟨⟨4294967295⟩, 2, 2, 0, false, none, [1, 2]⟩, ⟨⟨3⟩, 3, 1, 1, false, none, []⟩]
  pending := [⟨⟨4294967295⟩, 0, [9]⟩, ⟨⟨4294967295⟩, 0, [7, 8]⟩]

theorem wellFormed_crossedImage : crossedImage.WellFormed {} where
  format := rfl
  described := List.forall_mem_cons.mpr ⟨⟨_, rfl, by decide, fun _ => rfl⟩,
    List.forall_mem_singleton.mpr ⟨_, rfl, by decide, nofun⟩⟩
  nonnull := by decide
  distinct := by decide
  room := by
    intro l
    cases l <;> decide
  pending := List.forall_mem_cons.mpr
    ⟨⟨_, .head _, _, ⟨rfl, by decide, fun _ => rfl⟩, rfl, by decide⟩,
      List.forall_mem_singleton.mpr
        ⟨_, .head _, _, ⟨rfl, by decide, fun _ => rfl⟩, rfl, by decide⟩⟩

/-- It is accepted; the entry that was logged first prevails, and no reference is left. -/
theorem restore_accepts_wellFormed_crossedImage :
    ∃ card', (restore {} crossedImage.encode).exec (blank {}) = (.ok (), card') ∧
      card'.memory.store.payload? ⟨4294967295⟩ = some [9, 8] ∧ card'.memory.store.next = none := by
  have hsize : crossedImage.encode.length ≤ Image.maxBytes := by decide +kernel
  obtain ⟨haccepts, hcard⟩ := restore_accepts_wellFormed (c := {}) hsize
    (Image.decode?_encode hsize) (blank {})
  have hok := haccepts.mpr ⟨rfl, wellFormed_crossedImage⟩
  generalize hrestored : (restore {} crossedImage.encode).exec (blank {}) = restored at hok hcard
  obtain ⟨result, card'⟩ := restored
  cases hok
  obtain ⟨_, hpowered, _⟩ := hcard rfl
  refine ⟨card', rfl, ?_, ?_⟩
  · exact hpowered.payload (.head _) ⟨rfl, by decide, fun _ => rfl⟩ rfl
  · exact hpowered.exhausted.mpr ⟨_, .head _, rfl⟩

end Card

end SmartCard
