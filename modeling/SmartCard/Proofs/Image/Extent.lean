-- SUMMARY: The byte form of an image is complete just where it ends: nothing shorter or longer is an image.
import SmartCard.Image.PowerUp
import SmartCard.Proofs.Cbor.Extent
import SmartCard.Proofs.Image.RoundTrip

/-!
# The extent of an image

The readers of images find the end of an image in the image itself. A file that is cut short, or
that has more behind it, is therefore no image. This needs no bound on the size of the file but the
one that the heads of lists impose on the number of their values.
-/

namespace SmartCard

open Cbor

/-! ## Readers -/

theorem selfDelimiting_readUInt8 : SelfDelimiting readUInt8 :=
  (selfDelimiting_readNat UInt8.size).map UInt8.ofNat

theorem selfDelimiting_readUInt16 : SelfDelimiting readUInt16 :=
  (selfDelimiting_readNat UInt16.size).map UInt16.ofNat

theorem selfDelimiting_readUInt64 : SelfDelimiting readUInt64 :=
  (selfDelimiting_readNat UInt64.size).map UInt64.ofNat

theorem selfDelimiting_readRef : SelfDelimiting readRef :=
  (selfDelimiting_readNat UInt32.size).map fun n => (⟨UInt32.ofNat n⟩ : ArrayRef)

theorem selfDelimiting_readDigest : SelfDelimiting readDigest :=
  (selfDelimiting_readOptional UInt64.size).map fun n => n.map UInt64.ofNat

theorem ImageArray.fieldsDelimited : recordReader.FieldsDelimited := by
  intro i p
  show SelfDelimiting (Partial.field i p)
  unfold Partial.field
  split
  · exact selfDelimiting_readRef.once _ _
  · exact selfDelimiting_readUInt8.once _ _
  · exact selfDelimiting_readUInt16.once _ _
  · exact selfDelimiting_readUInt8.once _ _
  · exact selfDelimiting_readFlag.once _ _
  · exact selfDelimiting_readDigest.once _ _
  · exact selfDelimiting_readBytes.once _ _
  · exact selfDelimiting_none

theorem ImageArray.selfDelimiting_read : SelfDelimiting ImageArray.read :=
  RecordReader.selfDelimiting_finish fieldsDelimited Partial.finish

theorem ImageUndo.fieldsDelimited : recordReader.FieldsDelimited := by
  intro i p
  show SelfDelimiting (Partial.field i p)
  unfold Partial.field
  split
  · exact selfDelimiting_readRef.once _ _
  · exact selfDelimiting_readUInt64.once _ _
  · exact selfDelimiting_readBytes.once _ _
  · exact selfDelimiting_none

theorem ImageUndo.selfDelimiting_read : SelfDelimiting ImageUndo.read :=
  RecordReader.selfDelimiting_finish fieldsDelimited Partial.finish

namespace Image

theorem fieldsDelimited : recordReader.FieldsDelimited := by
  intro i p
  show SelfDelimiting (Partial.field i p)
  unfold Partial.field
  split
  · exact selfDelimiting_readUInt16.once _ _
  · exact (selfDelimiting_readList ImageArray.selfDelimiting_read).once _ _
  · exact (selfDelimiting_readList ImageUndo.selfDelimiting_read).once _ _
  · exact selfDelimiting_none

theorem selfDelimiting_read : SelfDelimiting Image.read :=
  RecordReader.selfDelimiting_finish fieldsDelimited Partial.finish

/-! ## Files -/

/-- Whether the byte form of an image can be read back at all: the lists of the image have no more
values than a head can count. -/
structure Countable (image : Image) : Prop where
  arrays : image.arrays.length < UInt64.size
  pending : image.pending.length < UInt64.size
  data : ∀ a ∈ image.arrays, a.data.length < UInt64.size
  before : ∀ u ∈ image.pending, u.before.length < UInt64.size

variable {image : Image} {bytes : List UInt8}

theorem Countable.read_append (h : image.Countable) (more : List UInt8) :
    read maxDepth (image.encode ++ more) = some (image, more) :=
  reads h.arrays h.pending h.data h.before maxDepth more (by decide)

/-- With more behind it, the byte form of an image is none. -/
theorem Countable.decode?_of_extends (h : image.Countable) (hextends : image.encode <+: bytes)
    (hne : bytes ≠ image.encode) : decode? bytes = none := by
  obtain ⟨more, rfl⟩ := hextends
  unfold decode?
  rw [h.read_append]
  cases more with
  | nil => exact absurd (List.append_nil _) hne
  | cons _ _ => rfl

/-- A beginning of the byte form of an image is none either. -/
theorem Countable.decode?_of_beginning (h : image.Countable) (hbegins : bytes <+: image.encode)
    (hne : bytes ≠ image.encode) : decode? bytes = none := by
  obtain ⟨missing, hwhole⟩ := hbegins
  unfold decode?
  split
  next other hread =>
    have hlong := h.read_append []
    rw [List.append_nil, ← hwhole] at hlong
    have hnothing := selfDelimiting_read.eq_nil_of_append hread hlong
    rw [hnothing, List.append_nil] at hwhole
    exact absurd hwhole hne
  next => rfl

/-- The fault of a file that was cut short or has more behind it. -/
def damaged (bytes : List UInt8) : Fault :=
  if maxBytes < bytes.length then .imageTooLarge else .imageUnreadable

theorem Countable.ofBytes_of_damaged (h : image.Countable)
    (hdamaged : bytes <+: image.encode ∨ image.encode <+: bytes) (hne : bytes ≠ image.encode) :
    ofBytes bytes = .error (damaged bytes) := by
  have hnone : decode? bytes = none :=
    hdamaged.elim (fun hbegins => h.decode?_of_beginning hbegins hne)
      fun hextends => h.decode?_of_extends hextends hne
  unfold ofBytes damaged
  rw [hnone]
  split
  · rfl
  · rfl

end Image

end SmartCard
