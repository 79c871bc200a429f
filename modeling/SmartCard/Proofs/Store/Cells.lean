-- SUMMARY: Well-formed cells, the bytes after an overwrite, and how cell updates keep a cell well formed.
import SmartCard.Store

/-!
# Cells as bytes

What single updates do to one cell: which bytes they change, and that they keep the cell well formed
(`Cell.Sound`). A well-formed cell has the payload size that its descriptor asks for, and a digest
only where one can have been recorded.
-/

namespace SmartCard

/-- A cell as the card makes and keeps it. Only a persistent array can bear a digest without being
sensitive: images may record one. -/
structure Cell.Sound (c : Cell) : Prop where
  length_le : c.descriptor.length ≤ maxArrayLength
  size : c.payload.length = c.descriptor.byteLength
  plain : c.descriptor.lifetime.isTransient = true → c.descriptor.sensitive = false →
    c.digest = none

theorem Lifetime.isTransient_iff {l : Lifetime} :
    l.isTransient = true ↔ l.isPersistent = false := by
  cases l <;> decide

theorem Lifetime.isTransient_of_not_persistent {l : Lifetime} (h : l.isPersistent = false) :
    l.isTransient = true :=
  Lifetime.isTransient_iff.mpr h

theorem Lifetime.not_transient_of_persistent {l : Lifetime} (h : l.isPersistent = true) :
    l.isTransient = false := by
  simp [Lifetime.isTransient, h]

theorem Descriptor.byteLength_lt {d : Descriptor} (h : d.length ≤ maxArrayLength) :
    d.byteLength < UInt32.size := by
  have hw := d.kind.width_le_four
  have hm : d.length * d.kind.width ≤ maxArrayLength * 4 := Nat.mul_le_mul h hw
  simp only [maxArrayLength, Descriptor.byteLength, UInt32.size] at hm ⊢
  omega

namespace Cell

/-! ## Descriptors -/

@[simp] theorem splice_descriptor (c : Cell) (offset : Nat) (bytes : List UInt8) :
    (c.splice offset bytes).descriptor = c.descriptor := by
  simp [splice]

@[simp] theorem clear_descriptor (c : Cell) : c.clear.descriptor = c.descriptor := by
  simp [clear]

@[simp] theorem zeroed_descriptor (d : Descriptor) : (zeroed d).descriptor = d := by
  simp [zeroed]

@[simp] theorem clear_payload (c : Cell) :
    c.clear.payload = List.replicate c.payload.length 0 := by
  simp [clear]

theorem splice_payload (c : Cell) (offset : Nat) (bytes : List UInt8) :
    (c.splice offset bytes).payload =
      c.payload.take offset ++ bytes ++ c.payload.drop (offset + bytes.length) := by
  simp [splice]

theorem flip?_eq_some_iff {c c' : Cell} {byte : Nat} {mask : UInt8} :
    c.flip? byte mask = some c' ↔
      byte < c.payload.length ∧ c' = { c with payload := c.payload.modify byte (· ^^^ mask) } := by
  unfold flip?
  by_cases h : byte < c.payload.length
  · simp [h, eq_comm]
  · simp [h]

/-! ## Bytes -/

/-- After an overwrite a byte is the one written there, and the old one elsewhere. -/
theorem splice_getElem? {c : Cell} {offset : Nat} {bytes : List UInt8}
    (h : offset + bytes.length ≤ c.payload.length) (i : Nat) :
    (c.splice offset bytes).payload[i]? =
      if offset ≤ i ∧ i < offset + bytes.length then bytes[i - offset]? else c.payload[i]? := by
  have htake : (c.payload.take offset).length = offset := by
    rw [List.length_take]
    omega
  rw [splice_payload, List.append_assoc, List.getElem?_append, htake]
  by_cases hlow : i < offset
  · rw [if_pos hlow, if_neg (by omega), List.getElem?_take_of_lt hlow]
  · rw [if_neg hlow, List.getElem?_append]
    by_cases hhigh : i < offset + bytes.length
    · rw [if_pos (by omega), if_pos ⟨by omega, hhigh⟩]
    · rw [if_neg (by omega), if_neg (by omega), List.getElem?_drop]
      congr 1
      omega

theorem read_eq_ok_iff {c : Cell} {offset count : Nat} {bytes : List UInt8} :
    c.read offset count = .ok bytes ↔
      offset + count ≤ c.payload.length ∧ bytes = (c.payload.drop offset).take count := by
  unfold read
  by_cases h : offset + count ≤ c.payload.length
  · simp [h, eq_comm]
  · simp [h]

/-- The bytes that were read are those of the payload from the offset on. -/
theorem getElem?_of_read {c : Cell} {offset count : Nat} {bytes : List UInt8}
    (h : c.read offset count = .ok bytes) {i : Nat} (hlow : offset ≤ i)
    (hhigh : i < offset + count) :
    bytes[i - offset]? = c.payload[i]? := by
  obtain ⟨_, rfl⟩ := read_eq_ok_iff.mp h
  rw [List.getElem?_take_of_lt (by omega), List.getElem?_drop]
  congr 1
  omega

theorem length_of_read {c : Cell} {offset count : Nat} {bytes : List UInt8}
    (h : c.read offset count = .ok bytes) : bytes.length = count := by
  obtain ⟨hfits, rfl⟩ := read_eq_ok_iff.mp h
  rw [List.length_take, List.length_drop]
  omega

/-! ## Well-formedness -/

/-- A cell that is not sensitive is left as it is. -/
theorem refresh_of_plain {c : Cell} (h : c.descriptor.sensitive = false) : c.refresh = c := by
  simp [refresh, h]

theorem Sound.zeroed {d : Descriptor} (h : d.length ≤ maxArrayLength) : (Cell.zeroed d).Sound where
  length_le := by simpa using h
  size := by simp [zeroed_payload]
  plain := by
    intro _ hplain
    rw [zeroed_descriptor] at hplain
    simp [Cell.zeroed, refresh_of_plain, hplain]

theorem Sound.splice {c : Cell} (h : c.Sound) {offset : Nat} {bytes : List UInt8}
    (hfits : offset + bytes.length ≤ c.payload.length) : (c.splice offset bytes).Sound where
  length_le := by simpa using h.length_le
  size := by rw [splice_payload_length hfits, h.size, splice_descriptor]
  plain := by
    intro htransient hplain
    rw [splice_descriptor] at htransient hplain
    simpa [Cell.splice, refresh_of_plain, hplain] using h.plain htransient hplain

theorem Sound.clear {c : Cell} (h : c.Sound) : c.clear.Sound where
  length_le := by simpa using h.length_le
  size := by simpa using h.size
  plain := by
    intro htransient hplain
    rw [clear_descriptor] at htransient hplain
    simpa [Cell.clear, refresh_of_plain, hplain] using h.plain htransient hplain

theorem Sound.flip? {c c' : Cell} (h : c.Sound) {byte : Nat} {mask : UInt8}
    (hflip : c.flip? byte mask = some c') : c'.Sound := by
  obtain ⟨_, rfl⟩ := flip?_eq_some_iff.mp hflip
  exact ⟨h.length_le, by simpa using h.size, h.plain⟩

theorem flip?_descriptor {c c' : Cell} {byte : Nat} {mask : UInt8}
    (h : c.flip? byte mask = some c') : c'.descriptor = c.descriptor := by
  obtain ⟨_, rfl⟩ := flip?_eq_some_iff.mp h
  rfl

/-- A cleared transient cell is as good as new. -/
theorem Sound.clear_eq_zeroed {c : Cell} (h : c.Sound)
    (ht : c.descriptor.lifetime.isTransient = true) :
    c.clear = Cell.zeroed c.descriptor := by
  rcases hs : c.descriptor.sensitive with _ | _
  · simp [Cell.clear, Cell.zeroed, Cell.refresh, hs, h.size, h.plain ht hs]
  · simp [Cell.clear, Cell.zeroed, Cell.refresh, hs, h.size]

end Cell

end SmartCard
