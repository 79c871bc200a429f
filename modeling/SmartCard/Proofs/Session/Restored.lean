-- SUMMARY: What the integrity checks of a restored card tell of the image it was restored from.
import SmartCard.Proofs.Image.WellFormed
import SmartCard.Proofs.Session.Integrity

/-!
# Integrity checks of restored cards

A persistent array comes up with the digest that its image recorded, which need not be the digest of
the payload that the image carries. The check finds that out, unless a pending entry names the
array: the entry is written back before the check, and every write renews the digest
(`Session.restored_check`).
-/

namespace SmartCard

variable {μ : Type} {c : Config}

/-- A description agrees with every field of its entry. -/
theorem ImageArray.Describes.fields {a : ImageArray} {d : Descriptor} (h : a.Describes d) :
    Kind.ofCode? a.kind = some d.kind ∧ a.length.toNat = d.length ∧
      Lifetime.ofMemoryType? a.memoryType = some d.lifetime ∧ a.sensitive = d.sensitive := by
  have hd := h.descriptor
  unfold descriptor? at hd
  split at hd
  next kind lifetime hkind hlifetime =>
    cases hd
    exact ⟨hkind, rfl, hlifetime, rfl⟩
  next => cases hd

namespace Image

variable {image : Image} {m : Memory} {a : ImageArray} {d : Descriptor}

theorem find?_powerUp_of_pending (h : powerUp c image = .ok m) (ha : a ∈ image.arrays)
    (hd : a.Describes d) (hpending : ∃ u ∈ image.pending, u.array = a.array) :
    ∃ cell, m.store.table.find? a.array = some cell ∧ cell.Sealed := by
  refine ⟨_, find?_powerUp h ha hd, Cell.sealed_rewound_of_named _ ?_⟩
  obtain ⟨u, hu, hnamed⟩ := hpending
  exact ⟨u.entry, List.mem_map_of_mem (List.mem_reverse.mpr hu), hnamed⟩

theorem find?_powerUp_of_spared (h : powerUp c image = .ok m) (ha : a ∈ image.arrays)
    (hd : a.Describes d) (hspared : ∀ u ∈ image.pending, u.array ≠ a.array) :
    m.store.table.find? a.array = some (a.cellAs d) := by
  rw [find?_powerUp h ha hd, Cell.rewound_of_unnamed]
  rw [List.forall_mem_map]
  exact fun u hu => hspared u (List.mem_reverse.mp hu)

end Image

namespace Session

variable [Matcher μ] {s : Session μ} {bytes : List UInt8} {image : Image} {a : ImageArray}

/-- A restoration that succeeds leaves a sound session, whatever there was before, with the memory
that is powered up from the image. -/
theorem powerUp_of_restore (h : (step (.restore c bytes) s).result = .ok .done) :
    (step (.restore c bytes) s).state.Sound ∧ ∃ image, Image.ofBytes bytes = .ok image ∧
      Image.powerUp c image = .ok (step (.restore c bytes) s).state.card.memory := by
  have hok : ((Card.restore c bytes).exec s.card).1 = .ok () := by
    rw [result_step_restore] at h
    rcases hresult : ((Card.restore c bytes).exec s.card).1 with e | _
    · rw [hresult] at h
      cases h
    · rfl
  have hexec : (Card.restore c bytes).exec s.card =
      (.ok (), (step (.restore c bytes) s).state.card) :=
    Prod.ext hok (card_step_restore c bytes s).symm
  obtain ⟨hvalid, image, m, himage, hm, hcard⟩ := Card.exec_restore_eq_ok_iff.mp hexec
  refine ⟨⟨?_, ?_, ?_⟩, image, himage, ?_⟩ <;> rw [hcard]
  · exact hvalid
  · exact Image.sound_powerUp hm
  · exact Image.settled_powerUp hm
  · exact hm

/-- What the check of a sensitive persistent array tells right after its card was restored. If a
pending entry of the image names the array, then the check succeeds. Otherwise a digest that the
image recorded counts: the check succeeds just when it is that of the payload in the image. -/
theorem restored_check (hrestored : (step (.restore c bytes) s).result = .ok .done)
    (himage : Image.ofBytes bytes = .ok image) (ha : a ∈ image.arrays)
    (hpersistent : Lifetime.ofMemoryType? a.memoryType = some .persistent)
    (hsensitive : a.sensitive = true) :
    ((∃ u ∈ image.pending, u.array = a.array) →
      (step (.assertIntegrity a.array) (step (.restore c bytes) s).state).result = .ok .done) ∧
    ∀ digest, a.digest = some digest → (∀ u ∈ image.pending, u.array ≠ a.array) →
      (step (.assertIntegrity a.array) (step (.restore c bytes) s).state).result =
        if digest = Digest.ofBytes a.data then .ok .done
        else .error (.digestMismatch a.array) := by
  obtain ⟨hsound, image', himage', hm⟩ := powerUp_of_restore hrestored
  cases himage.symm.trans himage'
  obtain ⟨d, hd⟩ := (Image.powerUp_isOk_iff.mp ⟨_, hm⟩).described a ha
  obtain ⟨_, _, hlifetime, hflag⟩ := hd.fields
  rw [hsensitive] at hflag
  rw [hpersistent, Option.some.injEq] at hlifetime
  constructor
  · -- Writing the entry back seals the cell, whatever digest it came with.
    intro hpending
    obtain ⟨cell, hcell, hsealed⟩ := Image.find?_powerUp_of_pending hm ha hd hpending
    have hcellSensitive : cell.descriptor.sensitive = true := by
      have hstored := (Image.poweredUp_of_powerUp hm).descriptor.mpr ⟨a, ha, rfl, hd⟩
      obtain ⟨found, hfound, rfl⟩ := Table.descriptor?_eq_some_iff.mp hstored
      rw [hcell, Option.some.injEq] at hfound
      rw [hfound, ← hflag]
    exact hsound.assertIntegrity_eq_done_iff.mpr
      ⟨cell, hcell, hcellSensitive, hsealed.isIntact hcellSensitive⟩
  · intro digest hdigest hspared
    have hlisted : a.cellAs d = ⟨d, a.data, some digest⟩ := by
      rw [ImageArray.cellAs, ← hlifetime, hdigest]
      exact if_pos rfl
    have hcell := Image.find?_powerUp_of_spared hm ha hd hspared
    rw [hlisted] at hcell
    split
    next hagrees =>
      refine hsound.assertIntegrity_eq_done_iff.mpr ⟨_, hcell, hflag.symm, ?_⟩
      exact beq_iff_eq.mpr hagrees
    next hdiffers =>
      refine hsound.assertIntegrity_eq_digestMismatch_iff.mpr ⟨_, hcell, hflag.symm, ?_⟩
      exact beq_eq_false_iff_ne.mpr hdiffers

/-- The image of two sensitive arrays. The digest of the first is not that of its payload; a pending
entry names the second. -/
def tamperedImage : Image where
  format := 1
  arrays := [⟨⟨1⟩, 2, 2, 0, true, some 7, [1, 0]⟩, ⟨⟨2⟩, 2, 2, 0, true, some 7, [1, 0]⟩]
  pending := [⟨⟨2⟩, 1, [0]⟩]

theorem ofBytes_tamperedImage : Image.ofBytes tamperedImage.encode = .ok tamperedImage :=
  Image.ofBytes_encode (by decide +kernel)

theorem restore_tamperedImage :
    (step (.restore {} tamperedImage.encode) fresh).result = .ok .done := by decide +kernel

/-- The check of the first array fails on the restored card. -/
theorem restored_check_tamperedImage :
    (step (.assertIntegrity ⟨1⟩) (step (.restore {} tamperedImage.encode) fresh).state).result =
      .error (.digestMismatch ⟨1⟩) := by
  have hdiffers : (7 : UInt64) ≠ Digest.ofBytes [1, 0] := by decide +kernel
  have hspared : ∀ u ∈ tamperedImage.pending, u.array ≠ ⟨1⟩ := by decide
  obtain ⟨_, hchecked⟩ :=
    restored_check restore_tamperedImage ofBytes_tamperedImage (.head _) rfl rfl
  rw [hchecked 7 rfl hspared]
  exact if_neg hdiffers

/-- The check of the second array succeeds, although its digest in the image is not that of its
payload there, and the pending entry brings back a byte that is the same. -/
theorem pending_entry_hides_corruption :
    (step (.restore {} tamperedImage.encode) fresh).result = .ok .done ∧
    Image.ofBytes tamperedImage.encode = .ok tamperedImage ∧
    ⟨⟨2⟩, 2, 2, 0, true, some 7, [1, 0]⟩ ∈ tamperedImage.arrays ∧
    7 ≠ Digest.ofBytes [1, 0] ∧
    (step (.assertIntegrity ⟨2⟩) (step (.restore {} tamperedImage.encode) fresh).state).result =
      .ok .done := by
  refine ⟨restore_tamperedImage, ofBytes_tamperedImage, .tail _ (.head _), ?_, ?_⟩
  · decide +kernel
  · decide +kernel

end Session

end SmartCard
