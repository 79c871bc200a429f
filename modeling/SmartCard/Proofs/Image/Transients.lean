-- SUMMARY: Transient memory at power-up: zero, but for bytes that pending entries of the image put there.
import SmartCard.Proofs.Image.WellFormed

/-!
# Transient memory at power-up

The transient arrays of an image come up zeroed, and only then are its pending entries restored. An
entry that names a transient array therefore leaves its bytes there. Of the entries that cover a
byte the one listed first is restored last and counts (`Image.pendingByte?`), so that transient
memory comes up zero just when no such byte differs from zero (`Image.SparesTransients`). The images
of a card are of this kind: its undo log keeps bytes of persistent arrays only.
-/

namespace SmartCard

variable {c : Config} {array : ArrayRef} {m : Memory}

/-- Whether every byte of every transient array is zero. -/
def Store.TransientsZero (s : Store) : Prop :=
  ∀ {array d}, s.descriptor? array = some d → d.lifetime.isTransient = true →
    s.payload? array = some (List.replicate d.byteLength 0)

/-- An array has a payload when each of its bytes is that of the payload. -/
theorem Store.payload?_eq_iff {s : Store} {d : Descriptor} (hd : s.descriptor? array = some d)
    {payload : List UInt8} :
    s.payload? array = some payload ↔ ∀ i, s.byte? array i = payload[i]? := by
  obtain ⟨cell, hfound, rfl⟩ := Table.descriptor?_eq_some_iff.mp hd
  simp only [Store.payload?, Store.byte?, hfound, Option.map_some, Option.some.injEq,
    Option.bind_some]
  exact List.ext_getElem?_iff

/-- An image describes the arrays of a memory as what they were made as. -/
theorem Cell.Sound.descriptor?_captureArray {cell : Cell} (h : cell.Sound) (array : ArrayRef) :
    (Image.captureArray array cell).descriptor? = some cell.descriptor := by
  obtain ⟨d, hd, hcell⟩ := ImageArray.cell_eq_ok_iff.mp (h.cell_captureArray array)
  rw [hd.descriptor, Option.some.injEq, ← ImageArray.descriptor_cellAs _ d, ← hcell,
    Store.cleared_descriptor]

namespace Image

variable {image : Image}

/-! ## Pending bytes -/

/-- The byte that pending entries give to an array. -/
def pendingByte? (image : Image) (array : ArrayRef) (i : Nat) : Option UInt8 :=
  (image.pending.find? fun u => u.entry.Covers array i).bind fun u => u.before[i - u.offset.toNat]?

/-- Whether pending entries give transient arrays no bytes but zeros. -/
def SparesTransients (image : Image) : Prop :=
  ∀ a ∈ image.arrays, ∀ d, a.descriptor? = some d → d.lifetime.isTransient = true →
    ∀ i b, image.pendingByte? a.array i = some b → b = 0

theorem kept?_pending (image : Image) (array : ArrayRef) (i : Nat) :
    UndoLog.kept? array i (image.pending.reverse.map ImageUndo.entry) =
      image.pendingByte? array i := by
  unfold pendingByte?
  induction image.pending with
  | nil => rfl
  | cons u more ih =>
    have hlast : UndoLog.kept? array i ([u].map ImageUndo.entry) =
        if u.entry.Covers array i then u.before[i - u.offset.toNat]? else none := Option.none_or
    rw [List.reverse_cons, List.map_append, UndoLog.kept?_append, hlast, ih, List.find?_cons]
    by_cases hcovers : u.entry.Covers array i
    · have hsome : (u.before[i - u.offset.toNat]?).isSome := hcovers.isSome
      rw [if_pos hcovers, decide_eq_true hcovers]
      exact Option.or_of_isSome hsome
    · rw [if_neg hcovers, decide_eq_false hcovers, Option.none_or]

/-- A byte is pending only in an array that an entry names. -/
theorem exists_of_pendingByte? {i : Nat} {b : UInt8} (h : image.pendingByte? array i = some b) :
    ∃ u ∈ image.pending, u.array = array := by
  obtain ⟨u, hu, _⟩ := Option.bind_eq_some_iff.mp h
  have hcovers : u.entry.Covers array i := by simpa using List.find?_some hu
  exact ⟨u, List.mem_of_find?_eq_some hu, hcovers.1⟩

/-! ## Powering up -/

/-- A transient array comes up with its pending bytes, and zero elsewhere. -/
theorem byte?_powerUp (h : powerUp c image = .ok m) {d : Descriptor}
    (hd : m.store.descriptor? array = some d) (htransient : d.lifetime.isTransient = true)
    (i : Nat) :
    m.store.byte? array i =
      (image.pendingByte? array i).or (List.replicate d.byteLength (0 : UInt8))[i]? := by
  obtain ⟨_, s, s', hs, hrestore, rfl⟩ := powerUp_eq_ok_iff.mp h
  obtain ⟨hadoptable, hadopted⟩ := adopted_of_adoptArrays (.empty c) hs
  rw [(Store.rewound_of_restore hrestore).descriptor] at hd
  obtain ⟨a, ha, rfl, hdescribes⟩ := (hadopted.descriptor?_iff hadoptable).mp hd
  have hzero : s.byte? a.array i = (List.replicate d.byteLength (0 : UInt8))[i]? := by
    rw [Store.byte?, hadopted.listed ha hdescribes, ImageArray.cellAs,
      if_neg (by rw [Lifetime.isTransient_iff.mp htransient]; exact Bool.false_ne_true),
      Option.bind_some, Cell.zeroed_payload]
  rw [← hzero, ← kept?_pending]
  exact Store.byte?_of_restore hrestore a.array i

/-- Transient memory comes up zero just when the pending entries spare it. -/
theorem transientsZero_iff (h : powerUp c image = .ok m) :
    m.store.TransientsZero ↔ image.SparesTransients := by
  have hpowered := poweredUp_of_powerUp h
  constructor
  · intro hzero a ha d hd htransient i b hb
    obtain ⟨d', hdescribes⟩ := (powerUp_isOk_iff.mp ⟨m, h⟩).described a ha
    cases hd.symm.trans hdescribes.descriptor
    have hstored := hpowered.descriptor.mpr ⟨a, ha, rfl, hdescribes⟩
    have hbyte := (Store.payload?_eq_iff hstored).mp (hzero hstored htransient) i
    rw [byte?_powerUp h hstored htransient, hb, Option.some_or] at hbyte
    exact List.eq_of_mem_replicate (List.mem_of_getElem? hbyte.symm)
  · -- A byte comes up pending or zero, and pending bytes of transient arrays are zero, too.
    intro hspares array d hd htransient
    obtain ⟨a, ha, rfl, hdescribes⟩ := hpowered.descriptor.mp hd
    obtain ⟨payload, hpayload, hsize⟩ := (sound_powerUp h).store.payload?_isSome hd
    rw [hpayload, Option.some.injEq, List.eq_replicate_iff]
    refine ⟨hsize, fun b hb => ?_⟩
    obtain ⟨i, hi⟩ := List.mem_iff_getElem?.mp hb
    rw [← (Store.payload?_eq_iff hd).mp hpayload, byte?_powerUp h hd htransient,
      Option.or_eq_some_iff] at hi
    rcases hi with hpending | ⟨_, hzero⟩
    · exact hspares a ha d hdescribes.descriptor htransient i b hpending
    · exact List.eq_of_mem_replicate (List.mem_of_getElem? hzero)

/-- The undo log of a card has nothing to do with its transient arrays. -/
theorem sparesTransients_capture (h : m.Sound c) : (capture m).SparesTransients := by
  intro a ha d hd htransient i b hb
  obtain ⟨other, cell, hfound, rfl⟩ := mem_capture_iff.mp ha
  obtain ⟨u, hu, hnamed⟩ := exists_of_pendingByte? hb
  obtain ⟨e, he, rfl⟩ := List.mem_map.mp hu
  obtain ⟨d', hd', hpersistent, _⟩ := h.entries (List.mem_reverse.mp he)
  obtain ⟨found, hfound', rfl⟩ := Table.descriptor?_eq_some_iff.mp hd'
  have hsame : m.store.table.find? other = some found := by
    rw [← hfound']
    exact congrArg m.store.table.find? hnamed.symm
  rw [hfound, Option.some.injEq] at hsame
  have hcell := (h.store.cells hfound).descriptor?_captureArray other
  rw [hd, Option.some.injEq] at hcell
  rw [hcell, hsame, Lifetime.not_transient_of_persistent hpersistent] at htransient
  cases htransient

end Image

/-! ## Restoring cards -/

namespace Card

/-- A restored card has no transaction and its whole commit buffer. Each byte of a transient array
is zero unless it is pending in the image; so transient memory is zero just when the pending entries
spare it, as they do in the image of any card. -/
theorem restored_transients {bytes : List UInt8} {card card' : Card}
    (hrestored : (restore c bytes).exec card = (.ok (), card')) :
    card'.transactionDepth = 0 ∧ card'.unusedCommitCapacityExtended = c.commitCapacity ∧
    ∃ image, Image.ofBytes bytes = .ok image ∧
      (∀ {array d}, card'.memory.store.descriptor? array = some d →
        d.lifetime.isTransient = true → ∀ i, card'.memory.store.byte? array i =
          (image.pendingByte? array i).or (List.replicate d.byteLength (0 : UInt8))[i]?) ∧
      (card'.memory.store.TransientsZero ↔ image.SparesTransients) ∧
      ∀ {c' m}, Memory.Sound c' m → image = Image.capture m →
        card'.memory.store.TransientsZero := by
  obtain ⟨_, image, m, himage, hm, rfl⟩ := exec_restore_eq_ok_iff.mp hrestored
  have hiff := Image.transientsZero_iff hm
  obtain ⟨_, _, _, _, _, rfl⟩ := Image.powerUp_eq_ok_iff.mp hm
  refine ⟨rfl, UInt32.sub_zero _, image, himage, fun hd ht i => Image.byte?_powerUp hm hd ht i,
    hiff, ?_⟩
  rintro c' m hsound rfl
  exact hiff.mpr (Image.sparesTransients_capture hsound)

/-- The image of a transient array with two pending entries for its first byte. -/
def overlaidImage : Image where
  format := 1
  arrays := [⟨⟨1⟩, 2, 2, 1, false, none, []⟩]
  pending := [⟨⟨1⟩, 0, [0]⟩, ⟨⟨1⟩, 0, [7]⟩]

/-- The entry listed first wipes out what the other one leaves. -/
theorem restored_transients_overlaidImage :
    ∃ card', (restore {} overlaidImage.encode).exec (blank {}) = (.ok (), card') ∧
      card'.memory.store.descriptor? ⟨1⟩ = some ⟨.byte, 2, .transientReset, false⟩ ∧
      card'.memory.store.TransientsZero := by
  have hok : ((restore {} overlaidImage.encode).exec (blank {})).1 = .ok () := by decide +kernel
  have hd : ((restore {} overlaidImage.encode).exec (blank {})).2.memory.store.descriptor? ⟨1⟩ =
    some ⟨.byte, 2, .transientReset, false⟩ := by decide +kernel
  have hread : Image.ofBytes overlaidImage.encode = .ok overlaidImage :=
    Image.ofBytes_encode (by decide +kernel)
  generalize hrestored : (restore {} overlaidImage.encode).exec (blank {}) = restored at hok hd
  obtain ⟨_, card'⟩ := restored
  cases hok
  obtain ⟨_, _, image, himage, _, hiff, _⟩ := restored_transients hrestored
  refine ⟨card', rfl, hd, hiff.mpr ?_⟩
  cases himage.symm.trans hread
  intro a ha d _ _ i b hb
  cases List.mem_singleton.mp ha
  rcases i with _ | i
  · cases hb
    rfl
  · cases hb

/-- The image of a transient array with a pending entry. -/
def strayImage : Image where
  format := 1
  arrays := [⟨⟨1⟩, 2, 2, 1, false, none, []⟩]
  pending := [⟨⟨1⟩, 0, [7]⟩]

/-- A card is powered up from it, and the transient array is not zero. -/
theorem stray_entry_outlasts_powerUp :
    ((restore {} strayImage.encode).exec (blank {})).1 = .ok () ∧
    ((restore {} strayImage.encode).exec (blank {})).2.memory.store.descriptor? ⟨1⟩ =
      some ⟨.byte, 2, .transientReset, false⟩ ∧
    ((restore {} strayImage.encode).exec (blank {})).2.memory.store.payload? ⟨1⟩ =
      some [7, 0] := by
  refine ⟨by decide +kernel, by decide +kernel, by decide +kernel⟩

end Card

end SmartCard
