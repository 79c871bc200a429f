-- SUMMARY: Primitives in bounds: what commands do behind their checks never fails, wraps around or leaves a payload.
import SmartCard.Proofs.Range.Transfers
import SmartCard.Proofs.Session.PackedValues

/-!
# Primitives in bounds

Checks are made on elements; what lies behind them works on bytes, shorts and widths. The two agree
because of what every memory keeps: arrays are no longer than a short can tell, and a payload has as
many bytes as its descriptor says. So the primitives that a command issues do what they are meant to
(`Primitive.InBounds`), and none of them fails.
-/

namespace SmartCard

variable {μ : Type} {c : Config} {s : Store} {array : ArrayRef} {offset count : Nat}

/-! ## Payloads -/

namespace Store

/-- Whether so many bytes from an offset on lie within the payload of an array. -/
def Covers (s : Store) (array : ArrayRef) (offset count : Nat) : Prop :=
  ∃ cell, s.table.find? array = some cell ∧ offset + count ≤ cell.payload.length

theorem Covers.read (h : s.Sound c) (hcovers : s.Covers array offset count) :
    ∃ bytes, s.read array offset count = .ok bytes := by
  obtain ⟨cell, hfound, hfits⟩ := hcovers
  exact ⟨_, read_eq_ok_iff.mpr
    ⟨cell, h.cell_iff.mpr hfound, Cell.read_eq_ok_iff.mpr ⟨hfits, rfl⟩⟩⟩

theorem covers_of_read {bytes : List UInt8} (h : s.read array offset count = .ok bytes) :
    s.Covers array offset count := by
  obtain ⟨cell, hcell, hread⟩ := read_eq_ok_iff.mp h
  exact ⟨cell, (cell_eq_ok_iff.mp hcell).2, (Cell.read_eq_ok_iff.mp hread).1⟩

/-- A payload has as many bytes as the descriptor says. -/
theorem Sound.covers (h : s.Sound c) {d : Descriptor} (hd : s.descriptor? array = some d)
    (hfits : offset + count ≤ d.byteLength) : s.Covers array offset count := by
  obtain ⟨cell, hfound, rfl⟩ := Table.descriptor?_eq_some_iff.mp hd
  refine ⟨cell, hfound, ?_⟩
  rwa [(h.cells hfound).size]

/-- Elements in the range of an operand are bytes in its payload. -/
theorem Sound.covers_operand (h : s.Sound c) {x : Range.Operand} {start : Nat}
    (hx : Range.operand s array = .ok x) (hrange : start + count ≤ x.length) :
    s.Covers array (start * x.width) (count * x.width) := by
  obtain ⟨d, hd, _, rfl⟩ := Range.operand_eq_ok_iff.mp hx
  exact h.covers (h.descriptor_iff.mp hd) (Descriptor.mul_width_le hrange)

end Store

theorem Write.InRange.covers {w : Write} (hw : w.InRange s) (h : s.Sound c) :
    s.Covers w.array w.offset w.bytes.length := by
  obtain ⟨d, hd, hfits⟩ := hw
  exact h.covers hd hfits

/-- Whether a primitive does what it is meant to: bytes that are read lie within their payload, an
index is a short, an offset is advanced without overflow, and a word has the bytes that are taken
from it. -/
def Primitive.InBounds (s : Store) : Primitive → Prop
  | .read array offset count => s.Covers array offset count
  | .short index => index ≤ maxArrayLength
  | .advance offset width => (offset + Int16.ofNat width).toInt = offset.toInt + width
  | .split width => width ≤ 4

/-- A primitive in bounds does not fail at all. -/
theorem Primitive.InBounds.fails {x : Primitive} (hx : x.InBounds s) (h : s.Sound c)
    (P : Fault → Prop) : x.Fails P s := by
  cases x with
  | read array offset count =>
    obtain ⟨bytes, hread⟩ := Store.Covers.read h hx
    show FailsOnly P (s.read array offset count)
    rw [hread]
    exact .ok bytes
  | short index =>
    show FailsOnly P (Range.shortIndex index)
    rw [Range.shortIndex_of_le hx]
    exact .ok _
  | advance | split => trivial

/-! ## Primitives that commands issue -/

/-- An offset may be advanced over its window. -/
theorem Packing.advance_inBounds (h : s.Sound c) {offset : Int16} {width start : Nat}
    (hstart : window s array offset width = .ok start) :
    (Primitive.advance offset width).InBounds s := by
  obtain ⟨d, hd, _, hoffset, hrange⟩ := window_eq_ok_iff.mp hstart
  have hlength := h.length_le (h.descriptor_iff.mp hd)
  have hnext := Range.index?_eq_some_iff.mp (index?_add hoffset (Nat.le_trans hrange hlength))
  show (offset + Int16.ofNat width).toInt = offset.toInt + width
  rw [hnext, Range.index?_eq_some_iff.mp hoffset, Int.natCast_add]

namespace Range

variable {x y : Operand}

/-- The left and the right range of a comparison take elements of one width. -/
theorem Comparison.covers (h : s.Sound c) {left right : ArrayRef}
    {leftOffset rightOffset length : Int16} {leftFrom rightFrom count : Nat}
    (hpassed : Comparison s left leftOffset right rightOffset length x y leftFrom rightFrom count) :
    s.Covers left (leftFrom * x.width) (count * x.width) ∧
      s.Covers right (rightFrom * x.width) (count * x.width) := by
  obtain ⟨hx, hy⟩ := operands_eq_ok hpassed.operands
  have hwidth : y.width = x.width :=
    congrArg Kind.width (checkKinds_eq_ok_iff.mp hpassed.kinds).symm
  have hright := h.covers_operand hy (checkRange_eq_ok_iff.mp hpassed.inRight)
  rw [hwidth] at hright
  exact ⟨h.covers_operand hx (checkRange_eq_ok_iff.mp hpassed.inLeft), hright⟩

variable {valueArray : ArrayRef} {offset valueOffset : Int16} {start value : Nat}

/-- A needle that is an element of the kind that is searched. -/
theorem Search.covers_element (h : s.Sound c)
    (hpassed : Search s array offset valueArray valueOffset x y start value)
    (hkind : y.kind = x.kind) (hrange : checkRange .value y value 1 = .ok ()) :
    s.Covers y.array (value * x.width) x.width := by
  obtain ⟨_, hy⟩ := operands_eq_ok hpassed.operands
  have hcovers := h.covers_operand hy (checkRange_eq_ok_iff.mp hrange)
  have hwidth : y.width = x.width := congrArg Kind.width hkind
  rw [Nat.one_mul, hwidth] at hcovers
  obtain ⟨_, _, _, rfl⟩ := operand_eq_ok_iff.mp hy
  exact hcovers

/-- A needle of single bytes. -/
theorem Search.covers_bytes (h : s.Sound c)
    (hpassed : Search s array offset valueArray valueOffset x y start value)
    (hbyte : y.kind = .byte) (hrange : checkRange .value y value x.width = .ok ()) :
    s.Covers y.array value x.width := by
  obtain ⟨_, hy⟩ := operands_eq_ok hpassed.operands
  have hcovers := h.covers_operand hy (checkRange_eq_ok_iff.mp hrange)
  have hwidth : y.width = 1 := congrArg Kind.width hbyte
  rw [hwidth, Nat.mul_one, Nat.mul_one] at hcovers
  obtain ⟨_, _, _, rfl⟩ := operand_eq_ok_iff.mp hy
  exact hcovers

/-- What is searched begins in the array, or at its end. -/
theorem Search.start_le (hpassed : Search s array offset valueArray valueOffset x y start value) :
    start ≤ x.length := checkRange_eq_ok_iff.mp hpassed.inArray

theorem Search.covers (h : s.Sound c)
    (hpassed : Search s array offset valueArray valueOffset x y start value) :
    s.Covers array (start * x.width) ((x.length - start) * x.width) := by
  have hstart := hpassed.start_le
  exact h.covers_operand (operands_eq_ok hpassed.operands).1 (by omega)

/-- An element that is found lies in the array. -/
theorem Search.found_lt (hpassed : Search s array offset valueArray valueOffset x y start value)
    {bytes : List UInt8} {i : Nat} {p : UInt32 → Bool}
    (hread : s.read array (start * x.width) ((x.length - start) * x.width) = .ok bytes)
    (hi : (words x.width bytes).findIdx? p = some i) : start + i < x.length := by
  have hwords := length_words x.kind.width_pos (Store.length_of_read hread)
  have hlt : i < (words x.width bytes).length := (List.findIdx?_eq_some_iff_getElem.mp hi).1
  change (words x.width bytes).length = x.length - start at hwords
  have hstart := hpassed.start_le
  omega

end Range

namespace Session

variable {s : Session μ} {command : Command μ}

/-- Behind the checks of a command everything is in bounds. -/
theorem inBounds_of_issues (h : s.card.memory.store.Sound c)
    (hcounter : ∀ {position t}, command.position? = some position →
      s.templates[position]? = some t → s.Hosts t)
    {x : Primitive} (hx : command.Issues s x) : x.InBounds s.card.memory.store := by
  have htries : ∀ {t : Template μ} {i : Nat}, s.Hosts t → i < 2 →
      s.card.memory.store.Covers t.counter i 1 := fun ht hi => h.covers ht hi
  cases hx with
  | element hslot =>
    obtain ⟨hd, hrange⟩ := Memory.slot_range hslot
    exact h.covers (h.descriptor_iff.mp hd) (by omega)
  | elements hd | rawBytes hd =>
    exact h.covers (h.descriptor_iff.mp hd) (Nat.le_of_eq (Nat.zero_add _))
  | encoded | allEncoded => exact Kind.width_le_four _
  | short hstart | int hstart =>
    obtain ⟨d, hd, hrange⟩ := Packing.window_range hstart
    exact h.covers (h.descriptor_iff.mp hd) hrange
  | shortBytes => exact (by decide : 2 ≤ 4)
  | intBytes => exact Nat.le_refl 4
  | shortEnd hstart | intEnd hstart => exact Packing.advance_inBounds h hstart
  | copySource hplan =>
    obtain ⟨bytes, hread⟩ := Range.Copy.read_isOk h hplan
    exact Store.covers_of_read hread
  | copyEnd hplan =>
    obtain ⟨x, y, start, count, target, _, hy, _, _, _, _, _, hrange, _, hplan⟩ :=
      Range.Copy.plan_eq_ok hplan
    rw [hplan]
    exact Nat.le_trans hrange (Range.operand_length_le h hy)
  | fillElement hplan =>
    obtain ⟨element, hread⟩ := Range.Fill.read_isOk h hplan
    exact Store.covers_of_read hread
  | fillEnd hplan =>
    obtain ⟨x, y, hx, _, _, _, _, _, hrange, _⟩ := Range.Fill.plan_eq_ok hplan
    exact Nat.le_trans hrange (Range.operand_length_le h hx)
  | compareLeft hpassed => exact (hpassed.covers h).1
  | compareRight hpassed => exact (hpassed.covers h).2
  | needleElement hpassed hkind hrange => exact hpassed.covers_element h hkind hrange
  | needleBytes hpassed _ hbyte hrange => exact hpassed.covers_bytes h hbyte hrange
  | searched hpassed => exact hpassed.covers h
  | foundAt hpassed hread hi =>
    have hlength := Range.operand_length_le h (Range.operands_eq_ok hpassed.operands).1
    exact Nat.le_trans (Nat.le_of_lt (hpassed.found_lt hread hi)) hlength
  | tries ht => exact htries (hcounter rfl ht) (by decide)
  | opening ht hi => exact htries (hcounter rfl ht) hi
  | continuing ht hi => exact htries (hcounter rfl ht) hi

end Session

end SmartCard
