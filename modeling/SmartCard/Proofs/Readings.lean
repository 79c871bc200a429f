-- SUMMARY: Elements as applets read them one by one, and what is left of a value that is stored and read again.
import SmartCard.Proofs.Range.Transfers

/-!
# Readings

Applets read single elements. The elements of a range, read one after the other
(`Card.readEach`), are the groups of the bytes that the range takes. A value that has been stored is
read as what its width leaves of it (`Kind.truncate`), and elements of one kind are equal exactly if
their bytes are.
-/

namespace SmartCard

variable {c : Config} {card before after : Card} {array : ArrayRef} {d : Descriptor}
  {index : Int16} {i start count : Nat} {bytes : List UInt8}

/-! ## Values -/

namespace Kind

/-- A value truncated to the width of the kind, and sign-extended back. -/
def truncate (k : Kind) (value : Int32) : Int32 :=
  match k with
  | .boolean | .byte => value.toInt8.toInt32
  | .short => value.toInt16.toInt32
  | .int | .object => value

/-- What a kind keeps of a value that is stored and read again. -/
theorem decode_encode (k : Kind) (value : Int32) :
    k.decode (k.encode value) = k.truncate value := by
  have hword : (BigEndian.assemble (k.encode value)).toNat =
      value.toBitVec.toNat % 256 ^ k.width := by
    rw [BigEndian.toNat_assemble (k.encode_length value ▸ k.width_le_four), encode,
      BigEndian.number_split k.width_le_four]
    rfl
  generalize k.encode value = bytes at hword
  -- The bits that a kind keeps are the low ones, whether the value is taken as signed or not.
  cases k
  case boolean | byte =>
    have hbits : (BigEndian.assemble bytes).toUInt8.toBitVec = value.toInt8.toBitVec := by
      refine BitVec.eq_of_toNat_eq ?_
      rw [Int32.toBitVec_toInt8, BitVec.signExtend_eq_setWidth_of_le _ (by decide)]
      simp [hword, width]
    exact congrArg Int8.toInt32 (Int8.toBitVec_inj.mp hbits)
  case short =>
    have hbits : (BigEndian.assemble bytes).toUInt16.toBitVec = value.toInt16.toBitVec := by
      refine BitVec.eq_of_toNat_eq ?_
      rw [Int32.toBitVec_toInt16, BitVec.signExtend_eq_setWidth_of_le _ (by decide)]
      simp [hword, width]
    exact congrArg Int16.toInt32 (Int16.toBitVec_inj.mp hbits)
  case int | object =>
    have hbits : (BigEndian.assemble bytes).toBitVec = value.toBitVec := by
      refine BitVec.eq_of_toNat_eq (hword.trans (Nat.mod_eq_of_lt ?_))
      exact value.toUInt32.toNat_lt
    exact Int32.toBitVec_inj.mp hbits

/-- Elements of a kind have the same value exactly if they have the same bytes. -/
theorem decode_inj {k : Kind} {xs ys : List UInt8} (hx : xs.length = k.width)
    (hy : ys.length = k.width) : k.decode xs = k.decode ys ↔ xs = ys := by
  refine ⟨fun h => ?_, congrArg k.decode⟩
  rw [← encode_decode hx, h, encode_decode hy]

end Kind

/-! ## Groups -/

/-- Bytes that begin with an element are cut behind it. -/
theorem chunks_cons {width : Nat} {xs : List UInt8} (hwidth : 0 < width) (hx : xs.length = width)
    (ys : List UInt8) : chunks width (xs ++ ys) = xs :: chunks width ys := by
  have hcount : (xs ++ ys).length / width = ys.length / width + 1 := by
    rw [List.length_append, hx, Nat.add_comm, Nat.add_div_right _ hwidth]
  rw [chunks, hcount, chunksOnto, List.drop_left' hx, List.take_left' hx, chunks, chunksOnto_eq,
    chunksOnto_eq]
  rfl

/-- Stored values are cut into the stored forms of the single ones. -/
theorem chunks_encode_append (k : Kind) (values : List Int32) (rest : List UInt8) :
    chunks k.width (values.flatMap k.encode ++ rest) =
      values.map k.encode ++ chunks k.width rest := by
  induction values with
  | nil => rfl
  | cons value more ih =>
    rw [List.flatMap_cons, List.append_assoc, chunks_cons k.width_pos (k.encode_length value), ih]
    rfl

/-- Whole elements that are read and stored again have the bytes that they had. -/
theorem flatMap_encode_decode {k : Kind} {bytes : List UInt8} {count : Nat}
    (h : bytes.length = count * k.width) :
    ((chunks k.width bytes).map k.decode).flatMap k.encode = bytes := by
  induction count generalizing bytes with
  | zero =>
    rw [Nat.zero_mul, List.length_eq_zero_iff] at h
    subst h
    simp [chunks, chunksOnto]
  | succ count ih =>
    rw [Nat.succ_mul] at h
    have hfirst : (bytes.take k.width).length = k.width := by
      rw [List.length_take]
      omega
    have hmore : (bytes.drop k.width).length = count * k.width := by
      rw [List.length_drop]
      omega
    conv_lhs => rw [← List.take_append_drop k.width bytes]
    rw [chunks_cons k.width_pos hfirst, List.map_cons, List.flatMap_cons, Kind.encode_decode hfirst,
      ih hmore, List.take_append_drop]

/-- Bytes without their first elements are cut into the other elements. -/
theorem chunks_drop (width n : Nat) (bytes : List UInt8) :
    chunks width (bytes.drop (n * width)) = (chunks width bytes).drop n := by
  refine List.ext_getElem? fun i => ?_
  have hcount : (bytes.length - n * width) / width = bytes.length / width - n := by
    rw [Nat.mul_comm, Nat.sub_mul_div]
  simp only [chunks_eq_map, List.length_drop, hcount, List.getElem?_drop, List.getElem?_map]
  by_cases hi : n + i < bytes.length / width
  · rw [List.getElem?_range hi, List.getElem?_range (by omega), Option.map_some, Option.map_some,
      List.drop_drop, Nat.mul_add, Nat.mul_comm n]
  · rw [List.getElem?_eq_none (by simp; omega), List.getElem?_eq_none (by simp; omega)]
    rfl

/-! ## Single elements -/

theorem index?_ofNat (h : i ≤ maxArrayLength) : index? (Int16.ofNat i) = some i :=
  Range.index?_eq_some_iff.mpr (Range.toInt_ofNat_of_le h)

namespace Card

/-- An element is read exactly within its array. -/
theorem getElement_eq_ok_iff {value : Int32} :
    card.getElement array index = .ok value ↔
      ∃ d i bytes, card.descriptor array = .ok d ∧ index? index = some i ∧ i < d.length ∧
        card.memory.store.read array (i * d.kind.width) d.kind.width = .ok bytes ∧
        value = d.kind.decode bytes := by
  constructor
  · intro h
    obtain ⟨⟨d, offset⟩, hslot, hrest⟩ := bind_eq_ok_iff.mp h
    obtain ⟨bytes, hread, hvalue⟩ := bind_eq_ok_iff.mp hrest
    obtain ⟨i, hd, hi, hrange, rfl⟩ := Memory.slot_eq_ok_iff.mp hslot
    exact ⟨d, i, bytes, hd, hi, hrange, hread, (Except.ok.inj hvalue).symm⟩
  · rintro ⟨d, i, bytes, hd, hi, hlt, hread, rfl⟩
    exact getElement_of_read hd hi hlt hread

/-- What is read at an index hangs on the descriptor of the array and on the bytes of the element. -/
theorem getElement_congr (hd : after.descriptor array = before.descriptor array)
    (hread : ∀ d i, before.descriptor array = .ok d → index? index = some i → i < d.length →
      after.memory.store.read array (i * d.kind.width) d.kind.width =
        before.memory.store.read array (i * d.kind.width) d.kind.width) :
    after.getElement array index = before.getElement array index := by
  have hd' : after.memory.descriptor array = before.memory.descriptor array := hd
  unfold getElement Memory.element
  have hslot : after.memory.slot array index 1 = before.memory.slot array index 1 := by
    unfold Memory.slot
    rw [hd']
  rw [hslot]
  rcases hfound : before.memory.slot array index 1 with e | ⟨d, offset⟩
  · rfl
  · obtain ⟨i, hbefore, hi, hlt, rfl⟩ := Memory.slot_eq_ok_iff.mp hfound
    simp only [bind, Except.bind, hread d i hbefore hi hlt]

/-! ## Ranges of elements -/

/-- The elements of a range, read one after the other. -/
def readEach (card : Card) (array : ArrayRef) (start count : Nat) : Except Fault (List Int32) :=
  (List.range count).mapM fun i => card.getElement array (Int16.ofNat (start + i))

/-- Queries that all succeed, one after the other. -/
theorem mapM_eq_ok {α β : Type} {f : α → Except Fault β} {g : α → β} {xs : List α}
    (h : ∀ x ∈ xs, f x = .ok (g x)) : xs.mapM f = .ok (xs.map g) := by
  induction xs with
  | nil => rfl
  | cons x xs ih =>
    rw [List.mapM_cons, h x (.head _), ih fun y hy => h y (.tail _ hy)]
    rfl

/-- The elements of a range are the groups of the bytes that they take together. -/
theorem readEach_of_read (h : card.memory.store.Sound c)
    (hd : card.memory.store.descriptor? array = some d) (hrange : start + count ≤ d.length)
    (hread : card.memory.store.read array (start * d.kind.width) (count * d.kind.width) =
      .ok bytes) :
    card.readEach array start count = .ok ((chunks d.kind.width bytes).map d.kind.decode) := by
  have hlength := h.length_le hd
  rw [chunks_eq_map, Store.length_of_read hread, Nat.mul_div_cancel _ d.kind.width_pos,
    List.map_map]
  refine mapM_eq_ok fun i hi => ?_
  have hlt := List.mem_range.mp hi
  have helement := Store.read_part hread (element_le hlt)
  rw [← Nat.add_mul] at helement
  rw [getElement_of_read ((descriptor_eq_ok_iff h).mpr hd) (index?_ofNat (by omega)) (by omega)
    helement, Nat.mul_comm i]
  rfl

/-- Whether so many elements of an array of a kind follow from an index on. -/
def HasRange (card : Card) (array : ArrayRef) (kind : Kind) (offset : Int16) (count : Nat) : Prop :=
  ∃ d, card.descriptor array = .ok d ∧ d.kind = kind ∧
    0 ≤ offset.toInt ∧ offset.toInt + count ≤ d.length

theorem hasRange_iff {kind : Kind} {offset : Int16} (h : card.memory.store.Sound c) :
    card.HasRange array kind offset count ↔
      ∃ d start, card.memory.store.descriptor? array = some d ∧ d.kind = kind ∧
        index? offset = some start ∧ start + count ≤ d.length := by
  constructor
  · rintro ⟨d, hd, hkind, hlow, hhigh⟩
    exact ⟨d, offset.toInt.toNat, (descriptor_eq_ok_iff h).mp hd, hkind,
      Range.index?_of_nonneg hlow, by omega⟩
  · rintro ⟨d, start, hd, hkind, hoffset, hrange⟩
    have hvalue := Range.index?_eq_some_iff.mp hoffset
    exact ⟨d, (descriptor_eq_ok_iff h).mpr hd, hkind, by omega, by omega⟩

/-- The elements of an array are those that are read one after the other. -/
theorem elements_eq_readEach (h : card.memory.store.Sound c)
    (hd : card.memory.store.descriptor? array = some d) :
    card.elements array = card.readEach array 0 d.length := by
  obtain ⟨cell, hfound, rfl⟩ := Table.descriptor?_eq_some_iff.mp hd
  have hread : card.memory.store.read array (0 * cell.descriptor.kind.width)
      (cell.descriptor.length * cell.descriptor.kind.width) = .ok cell.payload := by
    rw [Nat.zero_mul]
    exact read_payload h hfound
  rw [elements_of_found h hfound, readEach_of_read h hd (Nat.le_of_eq (Nat.zero_add _)) hread]

end Card

end SmartCard
