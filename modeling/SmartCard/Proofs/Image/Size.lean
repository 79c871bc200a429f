-- SUMMARY: Bounds on the number of bytes in which an image is written, by what it lists and keeps.
import SmartCard.Proofs.Image.RoundTrip

/-!
# Sizes of images

A head takes up to nine bytes and a byte of a list one or two, so that the size of a written image
lies between bounds that depend only on the number of its entries and on the bytes that they hold.
The names of the fields make up most of what an entry takes.
-/

namespace SmartCard

namespace Cbor

variable {α : Type}

/-! ## Items -/

theorem length_numberBytes (count n : Nat) : (numberBytes count n).length = count := by
  induction count with
  | zero => rfl
  | succ count ih => rw [numberBytes, List.length_cons, ih]

theorem length_head_le (m : Major) (n : Nat) : (head m n).length ≤ 9 := by
  unfold head
  repeat' split
  all_goals simp [length_numberBytes]

theorem length_uint8 (n : UInt8) :
    1 ≤ (number n.toNat).length ∧ (number n.toNat).length ≤ 2 := by
  refine ⟨length_head_pos _ _, ?_⟩
  rw [number, head, if_pos n.toNat_lt]
  split <;> simp [length_numberBytes]

theorem length_uint16 (n : UInt16) :
    1 ≤ (number n.toNat).length ∧ (number n.toNat).length ≤ 3 := by
  refine ⟨length_head_pos _ _, ?_⟩
  rw [number, head, if_pos n.toNat_lt]
  repeat' split
  all_goals simp [length_numberBytes]

theorem length_uint32 (n : UInt32) :
    1 ≤ (number n.toNat).length ∧ (number n.toNat).length ≤ 5 := by
  refine ⟨length_head_pos _ _, ?_⟩
  rw [number, head, if_pos n.toNat_lt]
  repeat' split
  all_goals simp [length_numberBytes]

theorem length_uint64 (n : UInt64) :
    1 ≤ (number n.toNat).length ∧ (number n.toNat).length ≤ 9 :=
  ⟨length_head_pos _ _, length_head_le _ _⟩

theorem length_optionalNumber (n : Option Nat) :
    1 ≤ (optionalNumber n).length ∧ (optionalNumber n).length ≤ 9 := by
  cases n with
  | none => exact ⟨Nat.le_refl _, by decide⟩
  | some n => exact ⟨length_head_pos _ _, length_head_le _ _⟩

/-- A list of values whose sizes have bounds of their own. -/
theorem length_list {f : α → List UInt8} {g : α → Nat} {low high : Nat}
    (h : ∀ x, low + g x ≤ (f x).length ∧ (f x).length ≤ high + 2 * g x) (xs : List α) :
    1 + low * xs.length + (xs.map g).sum ≤ (list f xs).length ∧
      (list f xs).length ≤ 9 + high * xs.length + 2 * (xs.map g).sum := by
  have hitems : low * xs.length + (xs.map g).sum ≤ (xs.flatMap f).length ∧
      (xs.flatMap f).length ≤ high * xs.length + 2 * (xs.map g).sum := by
    induction xs with
    | nil => exact ⟨Nat.le_refl _, Nat.le_refl _⟩
    | cons x more ih =>
      have hx := h x
      rw [List.length_cons, List.map_cons, List.sum_cons, List.flatMap_cons, List.length_append,
        Nat.mul_succ, Nat.mul_succ]
      omega
  have hpos := length_head_pos .list xs.length
  have hle := length_head_le .list xs.length
  rw [list, List.length_append]
  omega

theorem length_byteList (bytes : List UInt8) :
    1 + bytes.length ≤ (byteList bytes).length ∧
      (byteList bytes).length ≤ 9 + 2 * bytes.length := by
  have hbounds := length_list (fun b : UInt8 => show 0 + 1 ≤ (number b.toNat).length ∧
    (number b.toNat).length ≤ 0 + 2 * 1 from length_uint8 b) bytes
  rw [List.map_const', List.sum_replicate_nat, Nat.mul_one, Nat.zero_mul, Nat.add_zero,
    Nat.add_zero] at hbounds
  exact hbounds

theorem length_record (fields : List (String × List UInt8)) :
    (record fields).length = (head .map fields.length).length +
      (fields.map fun field => (text field.1).length + field.2.length).sum := by
  rw [record, List.length_append, List.length_flatMap]
  simp only [List.length_append]

end Cbor

open Cbor

/-! ## Entries -/

theorem ImageArray.length_encode (a : ImageArray) :
    72 + a.data.length ≤ a.encode.length ∧ a.encode.length ≤ 96 + 2 * a.data.length := by
  have hnames : (text "array").length = 6 ∧ (text "kind").length = 5 ∧
      (text "length").length = 7 ∧ (text "memory_type").length = 12 ∧
      (text "integrity_sensitive").length = 20 ∧ (text "checksum").length = 9 ∧
      (text "data").length = 5 := by decide
  have hhead : (head .map 7).length = 1 := rfl
  have hflag : (flag a.sensitive).length = 1 := rfl
  have harray := length_uint32 a.array.id
  have hkind := length_uint8 a.kind
  have hlength := length_uint16 a.length
  have hmemory := length_uint8 a.memoryType
  have hdigest := length_optionalNumber (a.digest.map UInt64.toNat)
  have hdata := length_byteList a.data
  rw [encode, length_record]
  simp only [List.length_cons, List.length_nil, List.map_cons, List.map_nil, List.sum_cons,
    List.sum_nil, Nat.reduceAdd, hnames, hhead, hflag]
  omega

theorem ImageUndo.length_encode (u : ImageUndo) :
    24 + u.before.length ≤ u.encode.length ∧ u.encode.length ≤ 44 + 2 * u.before.length := by
  have hnames : (text "array").length = 6 ∧ (text "offset").length = 7 ∧
      (text "before").length = 7 := by decide
  have hhead : (head .map 3).length = 1 := rfl
  have harray := length_uint32 u.array.id
  have hoffset := length_uint64 u.offset
  have hbefore := length_byteList u.before
  rw [encode, length_record]
  simp only [List.length_cons, List.length_nil, List.map_cons, List.map_nil, List.sum_cons,
    List.sum_nil, Nat.reduceAdd, hnames, hhead]
  omega

/-! ## Images -/

/-- A number of bytes in which an image may be written that lists `arrays` arrays with `payload`
bytes of data and `entries` pending entries with `kept` bytes. -/
structure Image.Sized (arrays payload entries kept bytes : Nat) : Prop where
  floor : 26 + 72 * arrays + payload + 24 * entries + kept ≤ bytes
  ceiling : bytes ≤ 44 + 96 * arrays + 2 * payload + 44 * entries + 2 * kept

/-- The bytes of data that an image lists. -/
def Image.payloadBytes (image : Image) : Nat := (image.arrays.map fun a => a.data.length).sum

/-- The bytes that the pending entries of an image keep. -/
def Image.pendingBytes (image : Image) : Nat := (image.pending.map fun u => u.before.length).sum

theorem Image.sized_encode (image : Image) :
    Sized image.arrays.length image.payloadBytes image.pending.length image.pendingBytes
      image.encode.length := by
  have hnames : (text "format").length = 7 ∧ (text "arrays").length = 7 ∧
      (text "pending").length = 8 := by decide
  have hhead : (head .map 3).length = 1 := rfl
  have hformat := length_uint16 image.format
  have harrays := length_list ImageArray.length_encode image.arrays
  have hpending := length_list ImageUndo.length_encode image.pending
  unfold payloadBytes pendingBytes
  rw [encode, length_record]
  simp only [List.length_cons, List.length_nil, List.map_cons, List.map_nil, List.sum_cons,
    List.sum_nil, Nat.reduceAdd, hnames, hhead]
  constructor <;> omega

end SmartCard
