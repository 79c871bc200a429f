-- SUMMARY: Elements in their stored form: cutting a payload into elements, reading and writing single elements.
import SmartCard.BigEndian
import SmartCard.Kind

/-!
# Elements

A payload is the concatenation of its elements, each stored big-endian in the width of the array's
kind. An element has two values: the unsigned word of its bytes (`words`), by which the range
operations compare, and the sign-extended value that an applet reads (`Kind.decode`).
-/

namespace SmartCard

/-- The first `count` elements of `width` bytes each, put behind those in `done`, which stand in
reverse. -/
def chunksOnto (width : Nat) : Nat → List UInt8 → List (List UInt8) → List (List UInt8)
  | 0, _, done => done.reverse
  | count + 1, bytes, done => chunksOnto width count (bytes.drop width) (bytes.take width :: done)

/-- A payload cut into elements. Bytes that do not fill an element are left out. -/
def chunks (width : Nat) (bytes : List UInt8) : List (List UInt8) :=
  chunksOnto width (bytes.length / width) bytes []

/-- The elements of a payload as unsigned words. -/
def words (width : Nat) (bytes : List UInt8) : List UInt32 :=
  (chunks width bytes).map BigEndian.assemble

/-- The value of a stored element, sign-extended from its width. -/
def Kind.decode (k : Kind) (bytes : List UInt8) : Int32 :=
  let word := BigEndian.assemble bytes
  match k with
  | .boolean | .byte => word.toUInt8.toInt8.toInt32
  | .short => word.toUInt16.toInt16.toInt32
  | .int | .object => word.toInt32

/-- The stored form of a value, truncated to the width of the kind. -/
def Kind.encode (k : Kind) (value : Int32) : List UInt8 :=
  BigEndian.split value.toUInt32 k.width

/-- An offset into an array or a length as a natural number, unless it is negative. -/
def index? (value : Int16) : Option Nat :=
  if value < 0 then none else some value.toInt.toNat

theorem chunksOnto_eq (width count : Nat) (bytes : List UInt8) (done : List (List UInt8)) :
    chunksOnto width count bytes done =
      done.reverse ++ (List.range count).map fun i => (bytes.drop (width * i)).take width := by
  induction count generalizing bytes done with
  | zero => simp [chunksOnto]
  | succ count ih =>
    rw [chunksOnto, ih]
    simp [List.range_succ_eq_map, Function.comp_def, List.drop_drop, Nat.mul_succ, Nat.add_comm]

/-- The elements of a payload lie side by side from its start. -/
theorem chunks_eq_map (width : Nat) (bytes : List UInt8) :
    chunks width bytes =
      (List.range (bytes.length / width)).map fun i => (bytes.drop (width * i)).take width := by
  simp [chunks, chunksOnto_eq]

/-- Every element of a payload has its width. -/
theorem length_of_mem_chunks {width : Nat} {bytes group : List UInt8}
    (h : group ∈ chunks width bytes) : group.length = width := by
  rw [chunks_eq_map] at h
  obtain ⟨i, hi, rfl⟩ := List.mem_map.mp h
  have hfits := Nat.mul_le_of_le_div _ _ _ (Nat.succ_le_of_lt (List.mem_range.mp hi))
  rw [Nat.succ_mul, Nat.mul_comm] at hfits
  simp
  omega

theorem Kind.encode_length (k : Kind) (value : Int32) : (k.encode value).length = k.width :=
  BigEndian.split_length k.width_le_four

end SmartCard
