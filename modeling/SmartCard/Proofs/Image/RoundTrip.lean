-- SUMMARY: An image is read back from its own byte form.
import SmartCard.Image.PowerUp
import SmartCard.Proofs.Cbor.RoundTrip

/-!
# The byte form of an image

Every image that is small enough to be accepted is what its byte form is decoded to. The fields of
each record are followed in the order in which they are written.
-/

namespace SmartCard

open Cbor

/-! ## Fields -/

theorem reads_uint8 (n : UInt8) : Reads 0 readUInt8 (number n.toNat) n := by
  have hread := reads_map (reads_number n.toNat_lt
    (Nat.lt_trans n.toNat_lt (by decide))) UInt8.ofNat
  rw [UInt8.ofNat_toNat] at hread
  exact hread

theorem reads_uint16 (n : UInt16) : Reads 0 readUInt16 (number n.toNat) n := by
  have hread := reads_map (reads_number n.toNat_lt
    (Nat.lt_trans n.toNat_lt (by decide))) UInt16.ofNat
  rw [UInt16.ofNat_toNat] at hread
  exact hread

theorem reads_uint64 (n : UInt64) : Reads 0 readUInt64 (number n.toNat) n := by
  have hread := reads_map (reads_number n.toNat_lt n.toNat_lt) UInt64.ofNat
  rw [UInt64.ofNat_toNat] at hread
  exact hread

theorem reads_ref (array : ArrayRef) : Reads 0 readRef (number array.id.toNat) array := by
  have hlt := array.id.toNat_lt
  have hread := reads_map (reads_number hlt (Nat.lt_trans hlt (by decide)))
    fun n => (⟨UInt32.ofNat n⟩ : ArrayRef)
  rw [UInt32.ofNat_toNat] at hread
  exact hread

theorem reads_digest (digest : Option UInt64) :
    Reads 0 readDigest (optionalNumber (digest.map UInt64.toNat)) digest := by
  have hbound : ∀ k ∈ digest.map UInt64.toNat, k < UInt64.size ∧ k < UInt64.size := by
    intro k hk
    obtain ⟨n, _, rfl⟩ := Option.map_eq_some_iff.mp hk
    exact ⟨n.toNat_lt, n.toNat_lt⟩
  have hread := reads_map (reads_optionalNumber hbound) fun n => n.map UInt64.ofNat
  have hid : (digest.map UInt64.toNat).map UInt64.ofNat = digest := by
    cases digest with
    | none => rfl
    | some n => rw [Option.map_some, Option.map_some, UInt64.ofNat_toNat]
  rw [hid] at hread
  exact hread

/-! ## Records -/

theorem ImageArray.reads {a : ImageArray} (h : a.data.length < UInt64.size) :
    Reads 2 read a.encode a := by
  obtain ⟨array, kind, length, memoryType, sensitive, digest, data⟩ := a
  have hfinish : Partial.finish ⟨some array, some kind, some length, some memoryType,
      some sensitive, some digest, some data⟩ =
        some ⟨array, kind, length, memoryType, sensitive, digest, data⟩ := rfl
  refine reads_record (r := recordReader) ?_ (by simp [UInt64.size]) hfinish
  refine .cons 0 (fun x => ⟨some x, none, none, none, none, none, none⟩)
    (by decide) (by decide) rfl (reads_ref array) (Nat.zero_le _) ?_
  refine .cons 1 (fun x => ⟨some array, some x, none, none, none, none, none⟩)
    (by decide) (by decide) rfl (reads_uint8 kind) (Nat.zero_le _) ?_
  refine .cons 2 (fun x => ⟨some array, some kind, some x, none, none, none, none⟩)
    (by decide) (by decide) rfl (reads_uint16 length) (Nat.zero_le _) ?_
  refine .cons 3 (fun x => ⟨some array, some kind, some length, some x, none, none, none⟩)
    (by decide) (by decide) rfl (reads_uint8 memoryType) (Nat.zero_le _) ?_
  refine .cons 4 (fun x => ⟨some array, some kind, some length, some memoryType, some x, none,
    none⟩)
    (by decide) (by decide) rfl (reads_flag sensitive) (Nat.zero_le _) ?_
  refine .cons 5
    (fun x => ⟨some array, some kind, some length, some memoryType, some sensitive, some x, none⟩)
    (by decide) (by decide) rfl (reads_digest digest) (Nat.zero_le _) ?_
  refine .cons 6
    (fun x => ⟨some array, some kind, some length, some memoryType, some sensitive, some digest,
      some x⟩)
    (by decide) (by decide) rfl (reads_byteList h) (Nat.le_refl _) ?_
  exact .nil _

theorem ImageUndo.reads {u : ImageUndo} (h : u.before.length < UInt64.size) :
    Reads 2 read u.encode u := by
  have hfinish : Partial.finish ⟨some u.array, some u.offset, some u.before⟩ = some u := rfl
  refine reads_record (r := recordReader) ?_ (by simp [UInt64.size]) hfinish
  refine .cons 0 (fun x => ⟨some x, none, none⟩)
    (by decide) (by decide) rfl (reads_ref u.array) (Nat.zero_le _) ?_
  refine .cons 1 (fun x => ⟨some u.array, some x, none⟩)
    (by decide) (by decide) rfl (reads_uint64 u.offset) (Nat.zero_le _) ?_
  refine .cons 2 (fun x => ⟨some u.array, some u.offset, some x⟩)
    (by decide) (by decide) rfl (reads_byteList h) (Nat.le_refl _) ?_
  exact .nil _

/-! ## Images -/

theorem ImageArray.length_encode_pos (a : ImageArray) : 0 < a.encode.length := length_record_pos _

theorem ImageUndo.length_encode_pos (u : ImageUndo) : 0 < u.encode.length := length_record_pos _

theorem ImageArray.length_data_le (a : ImageArray) : a.data.length ≤ a.encode.length := by
  apply Nat.le_trans (length_le_byteList a.data)
  exact @length_le_record _ ("data", byteList a.data) (by simp)

theorem ImageUndo.length_before_le (u : ImageUndo) : u.before.length ≤ u.encode.length := by
  apply Nat.le_trans (length_le_byteList u.before)
  exact @length_le_record _ ("before", byteList u.before) (by simp)

namespace Image

theorem reads {image : Image} (harrays : image.arrays.length < UInt64.size)
    (hpending : image.pending.length < UInt64.size)
    (hdata : ∀ a ∈ image.arrays, a.data.length < UInt64.size)
    (hbefore : ∀ u ∈ image.pending, u.before.length < UInt64.size) :
    Reads 4 read image.encode image := by
  have hreadArrays := reads_list (g := id) (fun a ha => ImageArray.reads (hdata a ha)) harrays
  have hreadPending := reads_list (g := id) (fun u hu => ImageUndo.reads (hbefore u hu)) hpending
  rw [List.map_id] at hreadArrays hreadPending
  have hfinish : Partial.finish ⟨some image.format, some image.arrays, some image.pending⟩ =
      some image := rfl
  refine reads_record (r := recordReader) ?_ (by simp [UInt64.size]) hfinish
  refine .cons 0 (fun x => ⟨some x, none, none⟩)
    (by decide) (by decide) rfl (reads_uint16 image.format) (Nat.zero_le _) ?_
  refine .cons 1 (fun x => ⟨some image.format, some x, none⟩)
    (by decide) (by decide) rfl hreadArrays (Nat.le_refl _) ?_
  refine .cons 2 (fun x => ⟨some image.format, some image.arrays, some x⟩)
    (by decide) (by decide) rfl hreadPending (Nat.le_refl _) ?_
  exact .nil _

/-- Decoding is a left inverse of encoding for images of an accepted size. -/
theorem decode?_encode {image : Image} (h : image.encode.length ≤ maxBytes) :
    decode? image.encode = some image := by
  have hmax : maxBytes < UInt64.size := by decide
  have harrays : (Cbor.list ImageArray.encode image.arrays).length ≤ image.encode.length :=
    @length_le_record _ ("arrays", _) (List.mem_cons_of_mem _ List.mem_cons_self)
  have hpending : (Cbor.list ImageUndo.encode image.pending).length ≤ image.encode.length :=
    @length_le_record _ ("pending", _) (List.mem_cons_of_mem _
      (List.mem_cons_of_mem _ List.mem_cons_self))
  have hdata : ∀ a ∈ image.arrays, a.data.length < UInt64.size := by
    intro a ha
    have hlist := length_le_list_of_mem (f := ImageArray.encode) ha
    have hrecord := a.length_data_le
    omega
  have hbefore : ∀ u ∈ image.pending, u.before.length < UInt64.size := by
    intro u hu
    have hlist := length_le_list_of_mem (f := ImageUndo.encode) hu
    have hrecord := u.length_before_le
    omega
  have hread := reads (Nat.lt_of_le_of_lt (length_le_list ImageArray.length_encode_pos image.arrays)
    (by omega)) (Nat.lt_of_le_of_lt (length_le_list ImageUndo.length_encode_pos image.pending)
      (by omega))
    hdata hbefore maxDepth [] (by decide)
  rw [List.append_nil] at hread
  unfold decode?
  rw [hread]

theorem ofBytes_encode {image : Image} (h : image.encode.length ≤ maxBytes) :
    ofBytes image.encode = .ok image := by
  rw [ofBytes, if_neg (Nat.not_lt.mpr h), decode?_encode h]

/-- An image whose byte form is small enough to be accepted is read back as it is, and no other
image has the same byte form. -/
theorem faithful_encode {image : Image} (h : image.encode.length ≤ maxBytes) :
    ofBytes image.encode = .ok image ∧
      ∀ other : Image, other.encode = image.encode → other = image := by
  refine ⟨ofBytes_encode h, fun other hsame => ?_⟩
  have hother : ofBytes other.encode = .ok other := by
    apply ofBytes_encode
    rw [hsame]
    exact h
  rw [hsame, ofBytes_encode h] at hother
  exact (Except.ok.inj hother).symm

/-- An image with numbers and lists on both sides of every change of width. -/
def widthsImage : Image where
  format := 65535
  arrays :=
    [⟨⟨0⟩, 0, 0, 0, false, none, []⟩,
      ⟨⟨23⟩, 23, 23, 23, true, some 23, [0, 23, 24, 255]⟩,
      ⟨⟨24⟩, 24, 24, 24, false, some 24, List.replicate 23 23⟩,
      ⟨⟨255⟩, 255, 255, 255, true, some 4294967295, List.replicate 24 24⟩,
      ⟨⟨65535⟩, 0, 256, 1, true, some 4294967296, List.replicate 255 0⟩,
      ⟨⟨4294967295⟩, 0, 65535, 2, false, some 18446744073709551615, List.replicate 256 255⟩]
  pending :=
    [⟨⟨65536⟩, 65535, []⟩, ⟨⟨256⟩, 65536, [255]⟩,
      ⟨⟨0⟩, 18446744073709551615, List.replicate 24 0⟩]

theorem faithful_encode_widthsImage :
    ofBytes widthsImage.encode = .ok widthsImage ∧
      ∀ other : Image, other.encode = widthsImage.encode → other = widthsImage :=
  faithful_encode (by decide +kernel)

end Image

end SmartCard
