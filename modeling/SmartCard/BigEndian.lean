-- SUMMARY: Big-endian words: reading bytes as a number, splitting a number into bytes, joining short words.

/-!
# Big-endian words

Elements are stored most significant byte first. `BigEndian.assemble` reads bytes as one unsigned
word, `BigEndian.split` writes the low bytes of a word, and the `BigEndian.join` functions build a
signed word from its signed parts. Words of one width are ordered as the bytes that write them
(`BigEndian.assemble_lt_iff`).
-/

namespace SmartCard

/-- A word with a byte put behind it. -/
def BigEndian.push (word : UInt32) (byte : UInt8) : UInt32 := (word <<< 8) ||| byte.toUInt32

/-- The unsigned word written by up to four bytes, most significant first. -/
def BigEndian.assemble (bytes : List UInt8) : UInt32 := bytes.foldl push 0

/-- The low `width` bytes of a word, most significant first, for a width of at most four. -/
def BigEndian.split (word : UInt32) (width : Nat) : List UInt8 :=
  [(word >>> 24).toUInt8, (word >>> 16).toUInt8, (word >>> 8).toUInt8, word.toUInt8].drop
    (4 - width)

/-- The short with high byte `b1` and low byte `b2`. -/
def BigEndian.joinBytes (b1 b2 : Int8) : Int16 :=
  ((b1.toUInt8.toUInt16 <<< 8) ||| b2.toUInt8.toUInt16).toInt16

/-- The int with high short `s1` and low short `s2`. -/
def BigEndian.joinShorts (s1 s2 : Int16) : Int32 :=
  ((s1.toUInt16.toUInt32 <<< 16) ||| s2.toUInt16.toUInt32).toInt32

/-- The int of four bytes, `b1` the most significant. -/
def BigEndian.joinFourBytes (b1 b2 b3 b4 : Int8) : Int32 :=
  joinShorts (joinBytes b1 b2) (joinBytes b3 b4)

namespace BigEndian

variable {word : UInt32} {xs ys front front' : List UInt8}

theorem split_length {width : Nat} (h : width ≤ 4) : (split word width).length = width := by
  simp only [split, List.length_drop, List.length_cons, List.length_nil]
  omega

theorem assemble_append_singleton (front : List UInt8) (byte : UInt8) :
    assemble (front ++ [byte]) = push (assemble front) byte := by
  simp [assemble]

theorem toNat_push (h : word.toNat < 0x1000000) (byte : UInt8) :
    (push word byte).toNat = word.toNat * 256 + byte.toNat := by
  have hbyte : byte.toNat < 2 ^ 8 := byte.toNat_lt
  have hshift : word.toNat <<< 8 < 2 ^ 32 := by
    rw [Nat.shiftLeft_eq]
    omega
  -- The low byte of the shifted word is free, so that nothing is carried.
  rw [push, UInt32.toNat_or, UInt32.toNat_shiftLeft, UInt8.toNat_toUInt32]
  simp only [UInt32.reduceToNat, Nat.reduceMod, Nat.mod_eq_of_lt hshift]
  rw [← Nat.shiftLeft_add_eq_or_of_lt hbyte, Nat.shiftLeft_eq]

/-- Behind three bytes there is room for one more. -/
theorem toNat_assemble_lt (h : front.length ≤ 3) : (assemble front).toNat < 0x1000000 := by
  have hnil : (assemble []).toNat < 1 := by decide
  have hpush : ∀ {word : UInt32} {n : Nat} (byte : UInt8), word.toNat < n → n ≤ 0x10000 →
      (push word byte).toNat < n * 256 := by
    intro word n byte hword hn
    have hbyte := byte.toNat_lt
    rw [toNat_push (by omega)]
    omega
  match front with
  | [] => exact Nat.lt_trans hnil (by decide)
  | [a] => exact Nat.lt_trans (hpush a hnil (by decide)) (by decide)
  | [a, b] => exact Nat.lt_trans (hpush b (hpush a hnil (by decide)) (by decide)) (by decide)
  | [a, b, c] => exact hpush c (hpush b (hpush a hnil (by decide)) (by decide)) (by decide)

/-! ## The order of words -/

/-- Of two words, the bytes that come first decide, and then those that follow. -/
theorem assemble_append_lt_iff (hfront : front.length = front'.length)
    (hlength : xs.length = ys.length) (h : front.length + xs.length ≤ 4) :
    assemble (front ++ xs) < assemble (front' ++ ys) ↔
      assemble front < assemble front' ∨ assemble front = assemble front' ∧ xs < ys := by
  induction xs generalizing ys front front' with
  | nil =>
    obtain rfl := List.eq_nil_of_length_eq_zero hlength.symm
    simp
  | cons x xs ih =>
    obtain ⟨y, ys, rfl⟩ := List.exists_cons_of_length_eq_add_one hlength.symm
    rw [List.length_cons] at h
    have hword : (assemble front).toNat < 0x1000000 := toNat_assemble_lt (by omega)
    have hword' : (assemble front').toNat < 0x1000000 := toNat_assemble_lt (by omega)
    have hx := x.toNat_lt
    have hy := y.toNat_lt
    rw [← List.singleton_append, ← List.append_assoc, ← List.singleton_append (x := y),
      ← List.append_assoc, ih (by simp [hfront]) (Nat.succ.inj hlength) (by simp; omega)]
    simp only [List.singleton_append, List.cons_lt_cons_iff, assemble_append_singleton,
      UInt32.lt_iff_toNat_lt, UInt8.lt_iff_toNat_lt, ← UInt32.toNat_inj, ← UInt8.toNat_inj,
      toNat_push hword, toNat_push hword']
    by_cases hrest : xs < ys <;> simp only [hrest, and_true, and_false, or_false] <;> omega

/-- Words of one width are ordered as the bytes that write them. -/
theorem assemble_lt_iff (hlength : xs.length = ys.length) (h : xs.length ≤ 4) :
    assemble xs < assemble ys ↔ xs < ys := by
  have hempty : ([] : List UInt8).length + xs.length ≤ 4 := by simpa using h
  have hnil : ¬assemble [] < assemble [] := UInt32.lt_irrefl _
  simpa [hnil] using assemble_append_lt_iff rfl hlength hempty

/-- A word of some width is written by one sequence of bytes. -/
theorem assemble_inj (hlength : xs.length = ys.length) (h : xs.length ≤ 4) :
    assemble xs = assemble ys ↔ xs = ys := by
  refine ⟨fun heq => ?_, congrArg assemble⟩
  have hlt := assemble_lt_iff hlength h
  have hgt := assemble_lt_iff hlength.symm (hlength ▸ h)
  rw [heq, iff_false_left (UInt32.lt_irrefl _)] at hlt hgt
  exact List.le_antisymm hgt hlt

end BigEndian

end SmartCard
