-- SUMMARY: No card comes up from an image file that was cut short or has more behind it.
import Mathlib.Algebra.Order.BigOperators.Group.List
import Mathlib.Algebra.Order.Group.Nat
import SmartCard.Proofs.Image.Extent
import SmartCard.Proofs.Session.Capacity
import SmartCard.Proofs.Session.Recovery

/-!
# Damaged image files

A file that holds the beginning of a card's image, or the image and more, powers up no card. The
pools, the commit buffer and the references of a card leave so little room that its image can be
read back in any case, so that nothing is assumed of the size of the image. Nor do other cards come
into it: whichever card is at hand when the file is read stays.
-/

namespace SmartCard

variable {c : Config} {m : Memory}

/-! ## How much there is on a card -/

/-- References that ascend from one on are no more than there are from it on. -/
theorem Table.length_le_of_ascending {es : List (ArrayRef × Cell)}
    (h : es.Pairwise fun x y => x.1.id < y.1.id) {first : Nat} (hfirst : first ≤ UInt32.size)
    (hfrom : ∀ entry ∈ es, first ≤ entry.1.id.toNat) : first + es.length ≤ UInt32.size := by
  induction es generalizing first with
  | nil => exact hfirst
  | cons entry rest ih =>
    obtain ⟨hentry, hrest⟩ := List.pairwise_cons.mp h
    have hle := hfrom entry List.mem_cons_self
    have hmore := ih hrest entry.1.id.toNat_lt fun x hx =>
      UInt32.lt_iff_toNat_lt.mp (hentry x hx)
    rw [List.length_cons]
    omega

theorem Table.length_le (t : Table) : t.entries.length ≤ UInt32.size := by
  have hle := length_le_of_ascending t.ascending (Nat.zero_le _) fun _ _ => Nat.zero_le _
  rwa [Nat.zero_add] at hle

/-- The bytes that the entries of a log keep are among the charged ones. -/
theorem UndoLog.Balanced.length_before_le {log : UndoLog} (h : log.Balanced) {e : UndoEntry}
    (he : e ∈ log.entries) : e.before.length ≤ log.used.toNat := by
  rw [h.used_eq]
  apply Nat.le_trans (Nat.le_add_left e.before.length log.overhead.toNat)
  exact List.single_le_sum (fun _ _ => Nat.zero_le _) _ (List.mem_map_of_mem he)

/-- No entry of a log is free of charge. -/
theorem UndoLog.Balanced.length_le {log : UndoLog} (h : log.Balanced) :
    log.entries.length ≤ log.used.toNat := by
  rw [h.used_eq, ← List.length_map (fun e : UndoEntry => log.cost e.before.length)]
  apply List.length_le_sum_of_one_le
  intro cost hcost
  obtain ⟨e, he, rfl⟩ := List.mem_map.mp hcost
  have hfilled := List.length_pos_of_ne_nil (h.filled he)
  unfold cost
  omega

/-- The image of a card can be read back, be it as large as it may. -/
theorem Image.countable_capture (h : m.Sound c) (hb : m.transaction.log.Balanced) :
    (capture m).Countable where
  arrays := by
    have hle := m.store.table.length_le
    simp only [capture, List.length_map]
    exact Nat.lt_of_le_of_lt hle (by decide)
  pending := by
    have hle := hb.length_le
    have hlt := m.transaction.log.used.toNat_lt
    simp only [capture, List.length_map, List.length_reverse]
    exact Nat.lt_trans (Nat.lt_of_le_of_lt hle hlt) (by decide)
  data := by
    intro a ha
    obtain ⟨⟨array, cell⟩, hentry, rfl⟩ := List.mem_map.mp ha
    have hcell := h.store.cells ((Table.lookup_eq_some_iff_mem m.store.table.ascending).mpr hentry)
    have hlt := Descriptor.byteLength_lt hcell.length_le
    rw [← hcell.size] at hlt
    unfold captureArray
    dsimp only
    split
    · exact Nat.lt_trans hlt (by decide)
    · decide
  before := by
    intro u hu
    obtain ⟨e, he, rfl⟩ := List.mem_map.mp hu
    have hle := hb.length_before_le (List.mem_reverse.mp he)
    have hlt := m.transaction.log.used.toNat_lt
    exact Nat.lt_trans (Nat.lt_of_le_of_lt hle hlt) (by decide)

/-! ## Restoring -/

theorem Image.errorClass_damaged (bytes : List UInt8) :
    (damaged bytes).errorClass = .system ∧ (damaged bytes).origin = .image ∧
      (damaged bytes).reason = none := by
  unfold damaged
  split
  · decide
  · decide

/-- A file that is refused leaves the card at hand. -/
theorem Card.exec_restore_of_unread {e : Fault} {bytes : List UInt8} (hvalid : c.validate = .ok ())
    (hread : Image.ofBytes bytes = .error e) (card : Card) :
    (restore c bytes).exec card = (.error e, card) := by
  unfold Act.exec restore
  simp only [hvalid, hread]

namespace Session

variable {μ ν : Type} [Matcher μ] [Matcher ν] {s : Session μ} {config : Config}
  {bytes : List UInt8}

/-- No damaged image file is accepted. A file that holds a beginning of the image of a card, but not
all of it, or the image with something behind it, is refused under every valid configuration, and
the card at hand stays as it is. The image itself, unless it is too large for any card, is accepted
under the configuration of its card. -/
theorem damaged_image_refused (hreachable : s.Reachable) (hvalid : config.validate = .ok ())
    (hdamaged : bytes <+: s.card.image ∨ s.card.image <+: bytes) (hne : bytes ≠ s.card.image)
    (atHand : Session ν) :
    (step (.restore config bytes) atHand).result = .error (Image.damaged bytes) ∧
      (Image.damaged bytes).errorClass = .system ∧ (Image.damaged bytes).origin = .image ∧
      (Image.damaged bytes).reason = none ∧
      (step (.restore config bytes) atHand).state.card = atHand.card ∧
      (s.card.image.length ≤ Image.maxBytes →
        (step (.restore s.card.config s.card.image) atHand).result = .ok .done) := by
  have hcountable := Image.countable_capture hreachable.sound.memory hreachable.balanced
  have hexec := Card.exec_restore_of_unread hvalid (hcountable.ofBytes_of_damaged hdamaged hne)
    atHand.card
  obtain ⟨hclass, horigin, hreason⟩ := Image.errorClass_damaged bytes
  refine ⟨?_, hclass, horigin, hreason, ?_, fun hsize => ?_⟩
  · rw [result_step_restore, hexec]
    rfl
  · rw [card_step_restore, hexec]
  · have hwhole := Card.exec_restore_capture hreachable.sound.config hreachable.sound.memory hsize
      atHand.card
    rw [result_step_restore, Card.image, hwhole]
    rfl

/-- The image of a card in the middle of a transaction, without its last byte and with one more. -/
theorem damaged_image_refused_beforeTear :
    (step (.restore {} beforeTear.card.image.dropLast) fresh).result = .error .imageUnreadable ∧
      (step (.restore {} (beforeTear.card.image ++ [0])) fresh).result =
        .error .imageUnreadable := by
  have hreachable : beforeTear.Reachable := reachable_fresh.run _
  have hvalid : Config.validate {} = .ok () := rfl
  have hshort : Image.damaged beforeTear.card.image.dropLast = .imageUnreadable := by
    decide +kernel
  have hlong : Image.damaged (beforeTear.card.image ++ [0]) = .imageUnreadable := by
    decide +kernel
  constructor
  · rw [← hshort]
    refine (damaged_image_refused hreachable hvalid (.inl (List.dropLast_prefix _)) ?_ fresh).1
    decide +kernel
  · rw [← hlong]
    refine (damaged_image_refused hreachable hvalid (.inr (List.prefix_append _ _)) ?_ fresh).1
    decide +kernel

end Session

end SmartCard
