-- SUMMARY: The numbers that bytes write: elements as digits of a payload, and the unsigned values that a card returns for them.
import Mathlib.Data.Nat.Digits.Lemmas
import SmartCard.Card
import SmartCard.Proofs.Store.Updates

/-!
# Bytes as numbers

Bytes write a number, most significant first (`BigEndian.number`). Cut into groups of `width` bytes
they write the same number with the groups as digits in base `256 ^ width`, and each group is found
in the number by division. The elements of an array are such groups: the unsigned value of an
element (`Card.unsigned`) is the number that its bytes write. Elements and packed values are reached
exactly within their arrays (`Memory.slot_eq_ok_iff`, `Packing.window_eq_ok_iff`).
-/

namespace SmartCard

variable {c : Config} {s : Store} {card : Card} {array : ArrayRef} {d : Descriptor}

/-! ## Numbers -/

namespace BigEndian

/-- The number that bytes write, most significant first. -/
def number (bytes : List UInt8) : Nat := Nat.ofDigits 256 (bytes.map UInt8.toNat).reverse

@[simp] theorem number_nil : number [] = 0 := rfl

@[simp] theorem number_singleton (byte : UInt8) : number [byte] = byte.toNat :=
  Nat.ofDigits_singleton

theorem number_append (xs ys : List UInt8) :
    number (xs ++ ys) = number xs * 256 ^ ys.length + number ys := by
  simp only [number, List.map_append, List.reverse_append, Nat.ofDigits_append, List.length_reverse,
    List.length_map]
  ring

theorem number_cons (x : UInt8) (xs : List UInt8) :
    number (x :: xs) = x.toNat * 256 ^ xs.length + number xs := by
  rw [← List.singleton_append, number_append, number_singleton]

theorem digit_lt (bytes : List UInt8) :
    ∀ digit ∈ (bytes.map UInt8.toNat).reverse, digit < 256 := by
  intro digit hmem
  obtain ⟨byte, _, rfl⟩ := List.mem_map.mp (List.mem_reverse.mp hmem)
  exact byte.toNat_lt

theorem number_lt (bytes : List UInt8) : number bytes < 256 ^ bytes.length := by
  simpa [number] using Nat.ofDigits_lt_base_pow_length (by decide) (digit_lt bytes)

/-- The bytes from an offset on are found in the number by division. -/
theorem number_slice {bytes : List UInt8} {offset count : Nat}
    (h : offset + count ≤ bytes.length) :
    number ((bytes.drop offset).take count) =
      number bytes / 256 ^ (bytes.length - offset - count) % 256 ^ count := by
  have hsplit : bytes =
      bytes.take offset ++ (bytes.drop offset).take count ++ bytes.drop (offset + count) := by
    simp [← List.drop_drop]
  have hcount : ((bytes.drop offset).take count).length = count := by simp; omega
  have hrest : (bytes.drop (offset + count)).length = bytes.length - offset - count := by
    simp; omega
  have hbelow := number_lt ((bytes.drop offset).take count)
  have hlow := number_lt (bytes.drop (offset + count))
  rw [hcount] at hbelow
  rw [hrest] at hlow
  conv_rhs => rw [hsplit]
  rw [number_append, number_append, hcount, ← hsplit, hrest, Nat.add_comm, Nat.add_mul_div_right _ _
    (by positivity), Nat.div_eq_of_lt hlow, Nat.zero_add, Nat.add_comm, Nat.add_mul_mod_self_right,
    Nat.mod_eq_of_lt hbelow]

/-- The groups of `width` bytes are the digits of the number in base `256 ^ width`. -/
theorem number_chunks {width count : Nat} {bytes : List UInt8} (hwidth : 0 < width)
    (h : bytes.length = count * width) :
    number bytes = Nat.ofDigits (256 ^ width) ((chunks width bytes).map number).reverse := by
  have hdigits : ∀ n ≤ count, number (bytes.take (n * width)) = Nat.ofDigits (256 ^ width)
      (((List.range n).map fun i => (bytes.drop (width * i)).take width).map number).reverse := by
    intro n hn
    induction n with
    | zero => simp
    | succ n ih =>
      have hfits : (n + 1) * width ≤ bytes.length := h ▸ Nat.mul_le_mul_right _ hn
      have hgroup : ((bytes.drop (n * width)).take width).length = width := by
        rw [Nat.succ_mul] at hfits
        simp
        omega
      rw [Nat.succ_mul, List.take_add, number_append, hgroup, ih (by omega), List.range_succ]
      simp only [List.map_append, List.reverse_append, List.map_cons, List.map_nil,
        List.reverse_singleton, List.singleton_append, Nat.ofDigits_cons, Nat.mul_comm width n]
      ring
  have hwhole := hdigits count (Nat.le_refl count)
  rwa [← h, List.take_length, ← Nat.mul_div_cancel count hwidth, ← h, ← chunks_eq_map] at hwhole

/-- Up to four bytes write the number that is read from them as a word. -/
theorem toNat_assemble {bytes : List UInt8} (h : bytes.length ≤ 4) :
    (assemble bytes).toNat = number bytes := by
  induction bytes using List.reverseRecOn with
  | nil => rfl
  | append_singleton leading byte ih =>
    rw [List.length_append, List.length_singleton] at h
    rw [assemble_append_singleton, toNat_push (toNat_assemble_lt (by omega)), ih (by omega),
      number_append]
    simp

/-- Bytes are determined by how many they are and the number that they write. -/
theorem number_injective {xs ys : List UInt8} (hlength : xs.length = ys.length)
    (h : number xs = number ys) : xs = ys := by
  have heq := Nat.ofDigits_inj_of_len_eq (by decide) (by simpa using hlength) (digit_lt xs)
    (digit_lt ys) h
  exact (List.map_inj_right fun _ _ => UInt8.toNat_inj.mp).mp (List.reverse_inj.mp heq)

/-- The low bytes of a word write what is left of it. -/
theorem number_split {word : UInt32} {width : Nat} (h : width ≤ 4) :
    number (split word width) = word.toNat % 256 ^ width := by
  have hlt := word.toNat_lt
  interval_cases width <;>
    simp [split, number, Nat.ofDigits_cons, Nat.shiftRight_eq_div_pow] <;> omega

end BigEndian

open BigEndian

/-! ## Values of elements -/

/-- The unsigned value of an element that a card returns as a signed number. -/
def Kind.unsigned (k : Kind) (value : Int32) : Nat := (value.toInt % 256 ^ k.width).toNat

/-- The elements of an array as unsigned numbers; none if there is no such array. -/
def Card.unsigned (card : Card) (array : ArrayRef) : List Nat :=
  match card.descriptor array, card.elements array with
  | .ok d, .ok values => values.map d.kind.unsigned
  | _, _ => []

/-- A signed number is congruent to the bits that stand for it. -/
theorem toInt_emod_two_pow {w : Nat} (x : BitVec w) :
    x.toInt % ((2 ^ w : Nat) : Int) = x.toNat := by
  have hlt : x.toNat < 2 ^ w := x.isLt
  rw [BitVec.toInt_eq_toNat_bmod, Int.bmod_emod]
  exact_mod_cast Nat.mod_eq_of_lt hlt

namespace Kind

/-- Sign extension does not change a value as an unsigned one. -/
theorem unsigned_decode {k : Kind} {bytes : List UInt8} (h : bytes.length = k.width) :
    k.unsigned (k.decode bytes) = number bytes := by
  have hword : (assemble bytes).toNat = number bytes :=
    toNat_assemble (Nat.le_trans (Nat.le_of_eq h) k.width_le_four)
  have hlt : number bytes < 256 ^ k.width := h ▸ number_lt bytes
  have hsigned : (k.decode bytes).toInt % 256 ^ k.width = number bytes := by
    cases k
    case boolean | byte =>
      have hbits := toInt_emod_two_pow (assemble bytes).toUInt8.toBitVec
      simp only [decode, Int8.toInt_toInt32]
      refine hbits.trans ?_
      rw [width] at hlt
      simp [hword]
      omega
    case short =>
      have hbits := toInt_emod_two_pow (assemble bytes).toUInt16.toBitVec
      simp only [decode, Int16.toInt_toInt32]
      refine hbits.trans ?_
      rw [width] at hlt
      simp [hword]
      omega
    case int | object =>
      have hbits := toInt_emod_two_pow (assemble bytes).toBitVec
      refine hbits.trans ?_
      simp [hword]
  rw [unsigned, hsigned, Int.toNat_natCast]

/-- The stored form of a value writes it as an unsigned one. -/
theorem number_encode (k : Kind) (value : Int32) : number (k.encode value) = k.unsigned value := by
  have hbits := toInt_emod_two_pow value.toBitVec
  have hdvd : (256 : Int) ^ k.width ∣ 2 ^ 32 := by cases k <;> decide
  have hvalue : value.toInt % 256 ^ k.width = (value.toUInt32.toNat : Int) % 256 ^ k.width := by
    rw [← Int.emod_emod_of_dvd value.toInt hdvd]
    exact congrArg (· % 256 ^ k.width) hbits
  rw [encode, number_split k.width_le_four, unsigned, hvalue]
  exact_mod_cast rfl

/-- An element that is read and stored again has the bytes that it had. -/
theorem encode_decode {k : Kind} {bytes : List UInt8} (h : bytes.length = k.width) :
    k.encode (k.decode bytes) = bytes :=
  number_injective ((encode_length k _).trans h.symm)
    ((number_encode k _).trans (unsigned_decode h))

end Kind

/-! ## Elements of an array -/

/-- One of several elements lies within the bytes that they take together. -/
theorem element_le {width i count : Nat} (h : i < count) : i * width + width ≤ count * width := by
  rw [← Nat.succ_mul]
  exact Nat.mul_le_mul_right width h

/-- Elements next to each other are the groups of the bytes that they take together. -/
theorem take_drop_chunks {width start count : Nat} {bytes : List UInt8} (hwidth : 0 < width)
    (h : start * width + count * width ≤ bytes.length) :
    ((chunks width bytes).drop start).take count =
      chunks width ((bytes.drop (start * width)).take (count * width)) := by
  have hlength : ((bytes.drop (start * width)).take (count * width)).length = count * width := by
    simp
    omega
  have hall : start + count ≤ bytes.length / width := by
    rw [Nat.le_div_iff_mul_le hwidth, Nat.add_mul]
    exact h
  refine List.ext_getElem? fun i => ?_
  simp only [chunks_eq_map, hlength, Nat.mul_div_cancel _ hwidth, List.getElem?_take,
    List.getElem?_drop, List.getElem?_map]
  by_cases hi : i < count
  · -- The group lies within the bytes that are cut out.
    have hgroup : width * i + width ≤ count * width := by
      rw [Nat.mul_comm width]
      exact element_le hi
    rw [if_pos hi, List.getElem?_range (by omega), List.getElem?_range hi, Option.map_some,
      Option.map_some, List.drop_take, List.take_take, List.drop_drop, Nat.min_eq_left (by omega),
      Nat.mul_add, Nat.mul_comm width start]
  · rw [if_neg hi, List.getElem?_eq_none (by simpa using hi)]
    rfl

namespace Store

/-- Part of what was read. -/
theorem read_part {offset count i n : Nat} {bytes : List UInt8}
    (h : s.read array offset count = .ok bytes) (hfits : i + n ≤ count) :
    s.read array (offset + i) n = .ok ((bytes.drop i).take n) := by
  obtain ⟨cell, hcell, hread⟩ := read_eq_ok_iff.mp h
  obtain ⟨hrange, rfl⟩ := Cell.read_eq_ok_iff.mp hread
  refine read_eq_ok_iff.mpr ⟨cell, hcell, Cell.read_eq_ok_iff.mpr ⟨by omega, ?_⟩⟩
  rw [List.drop_take, List.take_take, List.drop_drop, Nat.min_eq_left (by omega)]

theorem Sound.read_iff (h : s.Sound c) {cell : Cell} (hfound : s.table.find? array = some cell)
    {offset count : Nat} {bytes : List UInt8} :
    s.read array offset count = .ok bytes ↔ offset + count ≤ cell.descriptor.byteLength ∧
      bytes = (cell.payload.drop offset).take count := by
  rw [read_eq_ok_iff, ← (h.cells hfound).size, ← Cell.read_eq_ok_iff]
  simp [h.cell_iff, hfound]

/-- Bytes within an array can be read. -/
theorem Sound.read_isOk (h : s.Sound c) (hd : s.descriptor? array = some d) {offset count : Nat}
    (hfits : offset + count ≤ d.byteLength) : ∃ bytes, s.read array offset count = .ok bytes := by
  obtain ⟨cell, hfound, rfl⟩ := Table.descriptor?_eq_some_iff.mp hd
  exact ⟨_, (h.read_iff hfound).mpr ⟨hfits, rfl⟩⟩

end Store

/-! ## Checked places -/

/-- Elements are reached exactly within their array. -/
theorem Memory.slot_eq_ok_iff {m : Memory} {index : Int16} {count offset : Nat} :
    m.slot array index count = .ok (d, offset) ↔
      ∃ i, m.descriptor array = .ok d ∧ index? index = some i ∧ i + count ≤ d.length ∧
        offset = i * d.kind.width := by
  unfold slot
  rw [bind_eq_ok_iff]
  rcases index? index with _ | i
  · simp [throw, throwThe, MonadExceptOf.throw]
  · constructor
    · rintro ⟨d', hd, h⟩
      dsimp only at h
      split at h
      next hrange =>
        cases h
        exact ⟨i, hd, rfl, hrange, rfl⟩
      next => cases h
    · rintro ⟨_, hd, hi, hrange, rfl⟩
      cases hi
      exact ⟨d, hd, by simp [hrange, pure, Except.pure]⟩

/-- Packed values are reached exactly within their array, which is one of bytes. -/
theorem Packing.window_eq_ok_iff {offset : Int16} {width start : Nat} :
    window s array offset width = .ok start ↔
      ∃ d, s.descriptor .array array = .ok d ∧ d.kind = .byte ∧ index? offset = some start ∧
        start + width ≤ d.length := by
  unfold window
  rw [bind_eq_ok_iff]
  refine exists_congr fun d => and_congr_right fun _ => ?_
  split
  next hkind =>
    rcases index? offset with _ | i
    · simp [throw, throwThe, MonadExceptOf.throw]
    · dsimp only
      split
      next hrange =>
        constructor
        · rintro ⟨⟩
          exact ⟨hkind, rfl, hrange⟩
        · rintro ⟨-, ⟨⟩, -⟩
          rfl
      next hrange =>
        constructor
        · rintro ⟨⟩
        · rintro ⟨-, ⟨⟩, hin⟩
          exact absurd hin hrange
  next hkind => simp [hkind, throw, throwThe, MonadExceptOf.throw]

namespace Card

variable {cell : Cell} {bytes : List UInt8}

theorem descriptor_eq_ok_iff (h : card.memory.store.Sound c) :
    card.descriptor array = .ok d ↔ card.memory.store.descriptor? array = some d :=
  h.descriptor_iff

theorem read_payload (h : card.memory.store.Sound c)
    (hfound : card.memory.store.table.find? array = some cell) :
    card.memory.store.read array 0 cell.descriptor.byteLength = .ok cell.payload := by
  rw [h.read_iff hfound, ← (h.cells hfound).size]
  simp

theorem rawBytes_of_found (h : card.memory.store.Sound c)
    (hfound : card.memory.store.table.find? array = some cell) :
    card.rawBytes array = .ok cell.payload := by
  have hd : card.memory.descriptor array = .ok cell.descriptor :=
    (descriptor_eq_ok_iff h).mpr (Table.descriptor?_eq_some_iff.mpr ⟨cell, hfound, rfl⟩)
  simp [rawBytes, Memory.payload, hd, read_payload h hfound, bind, Except.bind]

theorem elements_of_found (h : card.memory.store.Sound c)
    (hfound : card.memory.store.table.find? array = some cell) :
    card.elements array =
      .ok ((chunks cell.descriptor.kind.width cell.payload).map cell.descriptor.kind.decode) := by
  have hd : card.memory.descriptor array = .ok cell.descriptor :=
    (descriptor_eq_ok_iff h).mpr (Table.descriptor?_eq_some_iff.mpr ⟨cell, hfound, rfl⟩)
  simp [elements, Memory.elements, hd, read_payload h hfound, bind, Except.bind, pure, Except.pure]

theorem unsigned_of_found (h : card.memory.store.Sound c)
    (hfound : card.memory.store.table.find? array = some cell) :
    card.unsigned array = (chunks cell.descriptor.kind.width cell.payload).map number := by
  have hd : card.descriptor array = .ok cell.descriptor :=
    (descriptor_eq_ok_iff h).mpr (Table.descriptor?_eq_some_iff.mpr ⟨cell, hfound, rfl⟩)
  rw [unsigned, hd, elements_of_found h hfound]
  dsimp only
  rw [List.map_map]
  exact List.map_congr_left fun group hmem => Kind.unsigned_decode (length_of_mem_chunks hmem)

/-- The unsigned values of elements next to each other are the numbers that their bytes write. -/
theorem unsigned_of_read (h : card.memory.store.Sound c)
    (hd : card.memory.store.descriptor? array = some d) {start count : Nat}
    (hread : card.memory.store.read array (start * d.kind.width) (count * d.kind.width) =
      .ok bytes) :
    ((card.unsigned array).drop start).take count = (chunks d.kind.width bytes).map number := by
  obtain ⟨cell, hfound, rfl⟩ := Table.descriptor?_eq_some_iff.mp hd
  obtain ⟨hrange, rfl⟩ := (h.read_iff hfound).mp hread
  rw [← (h.cells hfound).size] at hrange
  rw [unsigned_of_found h hfound, ← List.map_drop, ← List.map_take,
    take_drop_chunks cell.descriptor.kind.width_pos hrange]

theorem elements_of_read (h : card.memory.store.Sound c)
    (hd : card.memory.store.descriptor? array = some d) {start count : Nat}
    (hread : card.memory.store.read array (start * d.kind.width) (count * d.kind.width) =
      .ok bytes) :
    ∃ values, card.elements array = .ok values ∧
      (values.drop start).take count = (chunks d.kind.width bytes).map d.kind.decode := by
  obtain ⟨cell, hfound, rfl⟩ := Table.descriptor?_eq_some_iff.mp hd
  obtain ⟨hrange, rfl⟩ := (h.read_iff hfound).mp hread
  rw [← (h.cells hfound).size] at hrange
  refine ⟨_, elements_of_found h hfound, ?_⟩
  rw [← List.map_drop, ← List.map_take, take_drop_chunks cell.descriptor.kind.width_pos hrange]

theorem length_unsigned (h : card.memory.store.Sound c)
    (hd : card.memory.store.descriptor? array = some d) :
    (card.unsigned array).length = d.length := by
  obtain ⟨cell, hfound, rfl⟩ := Table.descriptor?_eq_some_iff.mp hd
  simp only [unsigned_of_found h hfound, chunks_eq_map, List.length_map, List.length_range,
    (h.cells hfound).size, Descriptor.byteLength]
  exact Nat.mul_div_cancel _ cell.descriptor.kind.width_pos

/-- The unsigned value of one element is the number that its bytes write. -/
theorem unsigned_getElem? (h : card.memory.store.Sound c)
    (hd : card.memory.store.descriptor? array = some d) {i : Nat}
    (hread : card.memory.store.read array (i * d.kind.width) d.kind.width = .ok bytes) :
    (card.unsigned array)[i]? = some (number bytes) := by
  have hone : card.memory.store.read array (i * d.kind.width) (1 * d.kind.width) = .ok bytes := by
    rwa [Nat.one_mul]
  have hgroup : chunks d.kind.width bytes = [bytes] := by
    simp [chunks_eq_map, Store.length_of_read hread, Nat.div_self d.kind.width_pos]
  have hslice := unsigned_of_read h hd hone
  rw [hgroup, List.map_singleton] at hslice
  have hhead := congrArg (·[0]?) hslice
  simpa [List.getElem?_take, List.getElem?_drop] using hhead

theorem slot_of_index (hd : card.descriptor array = .ok d) {index : Int16} {i : Nat}
    (hi : index? index = some i) (hlt : i < d.length) :
    card.memory.slot array index 1 = .ok (d, i * d.kind.width) :=
  Memory.slot_eq_ok_iff.mpr ⟨i, hd, hi, hlt, rfl⟩

theorem getElement_of_read (hd : card.descriptor array = .ok d) {index : Int16} {i : Nat}
    (hi : index? index = some i) (hlt : i < d.length)
    (hread : card.memory.store.read array (i * d.kind.width) d.kind.width = .ok bytes) :
    card.getElement array index = .ok (d.kind.decode bytes) := by
  simp [getElement, Memory.element, slot_of_index hd hi hlt, hread, bind, Except.bind, pure,
    Except.pure]

end Card

end SmartCard
