-- SUMMARY: Searches for a value: exactly when they are accepted, and that they return the least index that holds it.
import SmartCard.Proofs.Session.Comparing
import SmartCard.Proofs.Session.PackedValues

/-!
# Finding values

A search goes through the elements of an array from an offset on. The value it looks for is an
element of the same kind, or a value that is packed into an array of bytes (`Card.needle`). It
compares words; since these are the elements that an applet reads (`Kind.decode_eq_iff`), it returns
the least index from the offset on whose element is read as the value, or -1 if there is none.
-/

namespace SmartCard

open BigEndian

variable {μ : Type} {c : Config} {card : Card} {array valueArray : ArrayRef}
  {offset valueOffset index : Int16} {d d' : Descriptor} {start position count i : Nat}
  {bytes target : List UInt8} {value : Int32}

/-! ## Values -/

/-- Elements of a kind are read as one value exactly if their words are the same. -/
theorem Kind.decode_eq_iff {k : Kind} {xs ys : List UInt8} (hx : xs.length = k.width)
    (hy : ys.length = k.width) : assemble xs = assemble ys ↔ k.decode xs = k.decode ys := by
  rw [Kind.decode_inj hx hy, assemble_inj (hx.trans hy.symm) (hx ▸ k.width_le_four)]

namespace Card

/-- The value that a search looks for: the element of a value array of the same kind, or else the
short or the int that is packed at an offset of an array of bytes. -/
def needle (card : Card) (array valueArray : ArrayRef) (valueOffset : Int16) :
    Except Fault Int32 := do
  let d ← card.descriptor array
  let d' ← card.descriptor valueArray
  if d'.kind = d.kind then card.getElement valueArray valueOffset
  else if d.kind = .short then (card.getShort valueArray valueOffset).map Int16.toInt32
  else card.getInt valueArray valueOffset

/-- Whether arguments of a search are in order. -/
structure Searchable (card : Card) (array : ArrayRef) (offset : Int16) (valueArray : ArrayRef)
    (valueOffset : Int16) (d d' : Descriptor) : Prop where
  searched : card.descriptor array = .ok d
  values : card.descriptor valueArray = .ok d'
  numeric : d.kind.isNumeric = true ∧ d'.kind.isNumeric = true
  kinds : d'.kind = d.kind ∨ d'.kind = .byte
  start : 0 ≤ offset.toInt ∧ offset.toInt ≤ d.length
  position : 0 ≤ valueOffset.toInt
  inValues : valueOffset.toInt + (if d'.kind = d.kind then 1 else d.kind.width : Nat) ≤ d'.length

/-- An element of an array is read as some other value. -/
def Differs (card : Card) (array : ArrayRef) (value : Int32) (index : Int16) : Prop :=
  ∃ other, card.getElement array index = .ok other ∧ other ≠ value

/-- What a search looks at whose arguments are in order: the bytes of the needle, and those from
the offset to the end of the array. It returns the index of the first word of these that is the word
of the needle. -/
structure Looks (card : Card) (array : ArrayRef) (offset : Int16) (valueArray : ArrayRef)
    (valueOffset : Int16) (d : Descriptor) (start : Nat) (target bytes : List UInt8) : Prop where
  begins : index? offset = some start
  inArray : start ≤ d.length
  width : target.length = d.kind.width
  needle : card.needle array valueArray valueOffset = .ok (d.kind.decode target)
  read : card.memory.store.read array (start * d.kind.width) ((d.length - start) * d.kind.width) =
    .ok bytes
  hit : ∀ i, (words d.kind.width bytes).findIdx? (· == assemble target) = some i →
    Range.found card.memory.store array offset valueArray valueOffset =
      (Range.shortIndex (start + i)).map fun found => (found, i + 1)
  miss : (words d.kind.width bytes).findIdx? (· == assemble target) = none →
    Range.found card.memory.store array offset valueArray valueOffset = .ok (-1, d.length - start)

theorem Differs.not_read (h : card.Differs array value index) :
    card.getElement array index ≠ .ok value := by
  obtain ⟨other, hother, hne⟩ := h
  exact fun hread => hne (Except.ok.inj (hother.symm.trans hread))

/-- What is read lies within the array. -/
theorem lt_length_of_getElement (hd : card.descriptor array = .ok d)
    (hread : card.getElement array index = .ok value) : index.toInt < d.length := by
  obtain ⟨d', i, _, hd', hindex, hi, _⟩ := getElement_eq_ok_iff.mp hread
  have hsame : d' = d := Except.ok.inj (hd'.symm.trans hd)
  rw [Range.index?_eq_some_iff.mp hindex, ← hsame]
  exact_mod_cast hi

end Card

/-! ## What is looked at -/

/-- The bytes to look for are an element of the same kind, or as many single bytes. -/
theorem Range.needle_eq_ok_iff {s : Store} :
    needle s ⟨array, d⟩ ⟨valueArray, d'⟩ position = .ok target ↔
      (d'.kind = d.kind ∧ position + 1 ≤ d'.length ∧
        s.read valueArray (position * d.kind.width) d.kind.width = .ok target) ∨
      (d'.kind ≠ d.kind ∧ d'.kind = .byte ∧ position + d.kind.width ≤ d'.length ∧
        s.read valueArray position d.kind.width = .ok target) := by
  have hranged : ∀ {y : Operand} {n k : Nat} {x : Except Fault (List UInt8)},
      (do
        checkRange .value y n k
        x) = .ok target ↔ n + k ≤ y.length ∧ x = .ok target := by
    intro y n k x
    rw [bind_eq_ok_iff]
    constructor
    · rintro ⟨_, hrange, hx⟩
      exact ⟨checkRange_eq_ok_iff.mp hrange, hx⟩
    · rintro ⟨hrange, hx⟩
      exact ⟨(), checkRange_eq_ok_iff.mpr hrange, hx⟩
  unfold needle
  by_cases hkind : d'.kind = d.kind
  · have hkind' : (⟨valueArray, d'⟩ : Operand).kind = (⟨array, d⟩ : Operand).kind := hkind
    rw [if_pos hkind', hranged]
    simp [hkind, Operand.width, Operand.kind, Operand.length]
  · have hkind' : ¬(⟨valueArray, d'⟩ : Operand).kind = (⟨array, d⟩ : Operand).kind := hkind
    rw [if_neg hkind']
    by_cases hbyte : d'.kind = .byte
    · have hbyte' : (⟨valueArray, d'⟩ : Operand).kind = .byte := hbyte
      have hother : ¬Kind.byte = d.kind := hbyte ▸ hkind
      rw [if_pos hbyte', hranged]
      simp [hbyte, hother, Operand.width, Operand.kind, Operand.length]
    · have hbyte' : ¬(⟨valueArray, d'⟩ : Operand).kind = .byte := hbyte
      rw [if_neg hbyte']
      simp [hkind, hbyte]

namespace Card

variable (h : card.memory.store.Sound c)

include h

/-- The bytes to look for are those of the needle. -/
theorem needle_of_read (hd : card.memory.store.descriptor? array = some d)
    (hd' : card.memory.store.descriptor? valueArray = some d')
    (hnumeric : d.kind.isNumeric = true) (hposition : index? valueOffset = some position)
    (htarget : Range.needle card.memory.store ⟨array, d⟩ ⟨valueArray, d'⟩ position = .ok target) :
    target.length = d.kind.width ∧
      card.needle array valueArray valueOffset = .ok (d.kind.decode target) := by
  have hlookup := (descriptor_eq_ok_iff h).mpr hd
  have hlookup' := (descriptor_eq_ok_iff h).mpr hd'
  simp only [needle, hlookup, hlookup', bind, Except.bind]
  rcases Range.needle_eq_ok_iff.mp htarget with
    ⟨hkind, hrange, hread⟩ | ⟨hkind, hbyte, hrange, hread⟩
  · rw [if_pos hkind, ← hkind]
    rw [← hkind] at hread
    exact ⟨Store.length_of_read hread, getElement_of_read hlookup' hposition hrange hread⟩
  · rw [if_neg hkind]
    refine ⟨Store.length_of_read hread, ?_⟩
    -- The kind is neither that of the bytes nor one without numbers.
    rcases hsearched : d.kind
    case boolean | object =>
      rw [hsearched] at hnumeric
      cases hnumeric
    case byte => exact absurd (hbyte.trans hsearched.symm) hkind
    case short =>
      rw [hsearched] at hrange hread
      rw [if_pos rfl, getShort_of_read h hd' hbyte hposition hrange hread]
      rfl
    case int =>
      rw [hsearched] at hrange hread
      rw [if_neg nofun, getInt_of_read h hd' hbyte hposition hrange hread]
      rfl

/-- Where arguments are in order, the bytes to look for can be read. -/
theorem Searchable.needle_isOk
    (hsearch : card.Searchable array offset valueArray valueOffset d d')
    (hposition : index? valueOffset = some position) :
    ∃ target, Range.needle card.memory.store ⟨array, d⟩ ⟨valueArray, d'⟩ position = .ok target := by
  have hd' := (descriptor_eq_ok_iff h).mp hsearch.values
  have hvalue := Range.index?_eq_some_iff.mp hposition
  have hin := hsearch.inValues
  by_cases hkind : d'.kind = d.kind
  · rw [if_pos hkind] at hin
    have hlt : position < d'.length := by omega
    obtain ⟨target, hread⟩ := h.read_isOk hd' (element_le hlt)
    rw [hkind] at hread
    exact ⟨target, Range.needle_eq_ok_iff.mpr (.inl ⟨hkind, hlt, hread⟩)⟩
  · rw [if_neg hkind] at hin
    have hbyte := hsearch.kinds.resolve_left hkind
    have hle : position + d.kind.width ≤ d'.length := by omega
    have hfits : position + d.kind.width ≤ d'.byteLength := by
      rwa [Descriptor.byteLength_of_byte hbyte]
    obtain ⟨target, hread⟩ := h.read_isOk hd' hfits
    exact ⟨target, Range.needle_eq_ok_iff.mpr (.inr ⟨hkind, hbyte, hle, hread⟩)⟩

/-- Arguments in order pass all checks, and the words of the range are gone through. -/
theorem Searchable.looks (hsearch : card.Searchable array offset valueArray valueOffset d d') :
    ∃ start target bytes,
      card.Looks array offset valueArray valueOffset d start target bytes := by
  have hd := (descriptor_eq_ok_iff h).mp hsearch.searched
  have hd' := (descriptor_eq_ok_iff h).mp hsearch.values
  have hoffset := Range.index?_of_nonneg hsearch.start.1
  have hposition := Range.index?_of_nonneg hsearch.position
  have hle : offset.toInt.toNat ≤ d.length := by
    have hhigh := hsearch.start.2
    omega
  obtain ⟨target, htarget⟩ := hsearch.needle_isOk h hposition
  obtain ⟨hlength, hneedle⟩ := needle_of_read h hd hd' hsearch.numeric.1 hposition htarget
  have hfits : offset.toInt.toNat + (d.length - offset.toInt.toNat) ≤ d.length := by omega
  obtain ⟨bytes, hread⟩ := h.read_isOk hd (Descriptor.mul_width_le hfits)
  have hx := Range.operand_of_numeric h hd hsearch.numeric.1
  have hy := Range.operand_of_numeric h hd' hsearch.numeric.2
  have hstart : Range.natural .searchOffset offset = .ok offset.toInt.toNat :=
    Range.natural_eq_ok_iff.mpr hoffset
  have hvalue : Range.natural .valueOffset valueOffset = .ok valueOffset.toInt.toNat :=
    Range.natural_eq_ok_iff.mpr hposition
  have hrange : Range.checkRange .search ⟨array, d⟩ offset.toInt.toNat 0 = .ok () :=
    Range.checkRange_eq_ok_iff.mpr hle
  refine ⟨_, target, bytes, hoffset, hle, hlength, hneedle, hread, fun i hindex => ?_,
    fun hindex => ?_⟩ <;>
  simp only [Range.found, Range.operands_of_ok hx hy, hstart, hvalue, hrange, htarget,
    Range.Operand.width, Range.Operand.kind, Range.Operand.length, hread, hindex, bind, Except.bind,
    pure, Except.pure]

/-- What passes all checks is in order. -/
theorem searchable_of_found {r : Int16 × Nat}
    (hok : Range.found card.memory.store array offset valueArray valueOffset = .ok r) :
    ∃ d d', card.Searchable array offset valueArray valueOffset d d' := by
  unfold Range.found at hok
  obtain ⟨⟨x, y⟩, hxy, hok⟩ := bind_eq_ok_iff.mp hok
  obtain ⟨start, hstart, hok⟩ := bind_eq_ok_iff.mp hok
  obtain ⟨position, hposition, hok⟩ := bind_eq_ok_iff.mp hok
  obtain ⟨_, hrange, hok⟩ := bind_eq_ok_iff.mp hok
  obtain ⟨target, htarget, _⟩ := bind_eq_ok_iff.mp hok
  obtain ⟨hx, hy⟩ := Range.operands_eq_ok hxy
  obtain ⟨d, hd, hnumeric, rfl⟩ := Range.operand_eq_ok_iff.mp hx
  obtain ⟨d', hd', hnumeric', rfl⟩ := Range.operand_eq_ok_iff.mp hy
  have hoffset := Range.index?_eq_some_iff.mp (Range.natural_eq_ok_iff.mp hstart)
  have hvalueOffset := Range.index?_eq_some_iff.mp (Range.natural_eq_ok_iff.mp hposition)
  have hle : start + 0 ≤ d.length := Range.checkRange_eq_ok_iff.mp hrange
  have hneedle := Range.needle_eq_ok_iff.mp htarget
  exact ⟨d, d',
    { searched := (descriptor_eq_ok_iff h).mpr (h.descriptor_iff.mp hd)
      values := (descriptor_eq_ok_iff h).mpr (h.descriptor_iff.mp hd')
      numeric := ⟨hnumeric, hnumeric'⟩
      kinds := hneedle.imp (fun hsame => hsame.1) fun hbytes => hbytes.2.1
      start := by omega
      position := by omega
      inValues := by
        rcases hneedle with ⟨hkind, hin, _⟩ | ⟨hkind, _, hin, _⟩
        · rw [if_pos hkind]
          omega
        · rw [if_neg hkind]
          omega }⟩

/-! ## What is found -/

omit h in
/-- A word that is looked at is that of the needle exactly if the element is read as the needle. -/
theorem Looks.word (hlooks : card.Looks array offset valueArray valueOffset d start target bytes)
    (hd : card.descriptor array = .ok d) (hi : i < d.length - start)
    (hindex : index.toInt = (start + i : Nat)) :
    ∃ word, (words d.kind.width bytes)[i]? = some word ∧
      ((word == assemble target) = true →
        card.getElement array index = .ok (d.kind.decode target)) ∧
      ((word == assemble target) = false → card.Differs array (d.kind.decode target) index) := by
  have hread := Store.read_part hlooks.read (element_le hi)
  rw [← Nat.add_mul] at hread
  have helement := getElement_of_read hd (Range.index?_eq_some_iff.mpr hindex) (by omega) hread
  have hword : (words d.kind.width bytes)[i]? =
      some (assemble ((bytes.drop (i * d.kind.width)).take d.kind.width)) := by
    rw [words, chunks_eq_map, Store.length_of_read hlooks.read,
      Nat.mul_div_cancel _ d.kind.width_pos, List.getElem?_map, List.getElem?_map,
      List.getElem?_range hi, Nat.mul_comm i]
    rfl
  have hiff := Kind.decode_eq_iff (Store.length_of_read hread) hlooks.width
  refine ⟨_, hword, fun heq => ?_, fun hne => ⟨_, helement, fun hsame => ?_⟩⟩
  · rw [helement, hiff.mp (eq_of_beq heq)]
  · exact ne_of_beq_false hne (hiff.mpr hsame)

/-- A search that is in order ends in one of two ways: at the first index from the offset on whose
element is read as the needle, or without one. -/
theorem Searchable.found (hsearch : card.Searchable array offset valueArray valueOffset d d') :
    ∃ value examined, card.needle array valueArray valueOffset = .ok value ∧
      ((∃ i : Int16, Range.found card.memory.store array offset valueArray valueOffset =
          .ok (i, examined) ∧ offset.toInt ≤ i.toInt ∧ card.getElement array i = .ok value ∧
          ∀ j : Int16, offset.toInt ≤ j.toInt → j.toInt < i.toInt → card.Differs array value j) ∨
        (Range.found card.memory.store array offset valueArray valueOffset = .ok (-1, examined) ∧
          ∀ j : Int16, offset.toInt ≤ j.toInt → j.toInt < d.length →
            card.Differs array value j)) := by
  obtain ⟨start, target, bytes, hlooks⟩ := hsearch.looks h
  have hd := hsearch.searched
  have hstart := Range.index?_eq_some_iff.mp hlooks.begins
  have hmax := h.length_le ((descriptor_eq_ok_iff h).mp hd)
  have hcount := Range.length_words d.kind.width_pos (Store.length_of_read hlooks.read)
  rcases hindex : (words d.kind.width bytes).findIdx? (· == assemble target) with _ | i
  · refine ⟨_, _, hlooks.needle, .inr ⟨hlooks.miss hindex, fun j hlow hhigh => ?_⟩⟩
    obtain ⟨i, hi⟩ : ∃ i : Nat, j.toInt = (start + i : Nat) :=
      ⟨j.toInt.toNat - start, by omega⟩
    obtain ⟨word, hget, -, hdiffers⟩ := hlooks.word hd (by omega) hi
    exact hdiffers (List.findIdx?_eq_none_iff.mp hindex word (List.mem_of_getElem? hget))
  · obtain ⟨hi, hmatch, hbefore⟩ := List.findIdx?_eq_some_iff_getElem.mp hindex
    have hin : i < d.length - start := hcount ▸ hi
    have hshort : Range.shortIndex (start + i) = .ok (Int16.ofNat (start + i)) :=
      Range.shortIndex_of_le (by omega)
    have hvalue := Range.toInt_of_shortIndex hshort
    have hfound := hlooks.hit i hindex
    rw [hshort] at hfound
    refine ⟨_, _, hlooks.needle, .inl ⟨_, hfound, by omega, ?_, fun j hlow hhigh => ?_⟩⟩
    · obtain ⟨word, hget, hmatches, -⟩ := hlooks.word hd hin hvalue
      rw [List.getElem?_eq_getElem hi, Option.some.injEq] at hget
      exact hmatches (hget ▸ hmatch)
    · obtain ⟨k, hk⟩ : ∃ k : Nat, j.toInt = (start + k : Nat) :=
        ⟨j.toInt.toNat - start, by omega⟩
      have hlt : k < i := by omega
      obtain ⟨word, hget, -, hdiffers⟩ := hlooks.word hd (by omega) hk
      rw [List.getElem?_eq_getElem (Nat.lt_trans hlt hi), Option.some.injEq] at hget
      have hother := hbefore k hlt
      rw [hget] at hother
      exact hdiffers (Bool.not_eq_true _ ▸ hother)

end Card

namespace Session

variable [Matcher μ] {s : Session μ} {reply : Reply}

theorem step_find (array : ArrayRef) (offset : Int16) (valueArray : ArrayRef) (valueOffset : Int16)
    (s : Session μ) :
    (step (.find array offset valueArray valueOffset) s).result =
        (Range.found s.card.memory.store array offset valueArray valueOffset).map
          (fun r => .short r.1) ∧
      (step (.find array offset valueArray valueOffset) s).state.card = s.card :=
  step_reported (f := fun m => Range.found m.store array offset valueArray valueOffset) rfl s

/-- A search is accepted exactly if its arguments are in order. -/
theorem find_isOk_iff (hs : s.Sound) :
    (∃ reply, (step (.find array offset valueArray valueOffset) s).result = .ok reply) ↔
      ∃ d d', s.card.Searchable array offset valueArray valueOffset d d' := by
  rw [(step_find array offset valueArray valueOffset s).1]
  constructor
  · rintro ⟨reply, hok⟩
    rcases hfound : Range.found s.card.memory.store array offset valueArray valueOffset with e | r
    · rw [hfound] at hok
      cases hok
    · exact Card.searchable_of_found hs.memory.store hfound
  · rintro ⟨d, d', hsearch⟩
    obtain ⟨_, _, _, ⟨i, hfound, _⟩ | ⟨hfound, _⟩⟩ := hsearch.found hs.memory.store <;>
    · rw [hfound]
      exact ⟨_, rfl⟩

/-- A search finds the least match, and leaves the card as it is. It is accepted exactly if both
arrays exist and hold numbers, the offsets lie within them, the value array is of the kind of the
array that is searched or of bytes, and the needle lies within it. Then the needle is what an applet
reads there. The result is an index if the element there is read as the needle and those from the
offset up to it are read as other values, and -1 if all from the offset to the end are. -/
theorem find_least (hreachable : s.Reachable) (array : ArrayRef) (offset : Int16)
    (valueArray : ArrayRef) (valueOffset : Int16) :
    let o := step (.find array offset valueArray valueOffset) s
    o.state.card = s.card ∧
    ((∃ reply, o.result = .ok reply) ↔
      ∃ d d', s.card.Searchable array offset valueArray valueOffset d d') ∧
    ∀ d d', s.card.Searchable array offset valueArray valueOffset d d' →
      ∃ (value : Int32) (n : Int16), s.card.needle array valueArray valueOffset = .ok value ∧
        o.result = .ok (.short n) ∧ (n = -1 ∨ 0 ≤ n.toInt) ∧
        (∀ i : Int16, 0 ≤ i.toInt →
          (n = i ↔ offset.toInt ≤ i.toInt ∧ s.card.getElement array i = .ok value ∧
            ∀ j : Int16, offset.toInt ≤ j.toInt → j.toInt < i.toInt →
              s.card.Differs array value j)) ∧
        (n = -1 ↔ ∀ j : Int16, offset.toInt ≤ j.toInt → j.toInt < d.length →
          s.card.Differs array value j) := by
  have hs := hreachable.sound
  have hstore := hs.memory.store
  refine ⟨(step_find array offset valueArray valueOffset s).2, find_isOk_iff hs,
    fun d d' hsearch => ?_⟩
  have hoffset := hsearch.start.1
  have hresult := (step_find array offset valueArray valueOffset s).1
  obtain ⟨value, examined, hneedle, ⟨n, hfound, hlow, hhit, hbefore⟩ | ⟨hfound, hnone⟩⟩ :=
    hsearch.found hstore
  · refine ⟨value, n, hneedle, by rw [hresult, hfound]; rfl, .inr (by omega), fun i _ => ⟨?_, ?_⟩,
      ?_, ?_⟩
    · rintro rfl
      exact ⟨hlow, hhit, hbefore⟩
    · rintro ⟨hlow', hhit', hbefore'⟩
      refine Int16.toInt_inj.mp (Int.le_antisymm (Int.not_lt.mp fun hlt => ?_)
        (Int.not_lt.mp fun hlt => ?_))
      · exact (hbefore i hlow' hlt).not_read hhit'
      · exact (hbefore' n hlow hlt).not_read hhit
    · rintro rfl
      have hminus : (-1 : Int16).toInt = -1 := rfl
      omega
    · intro hnone
      have hin := Card.lt_length_of_getElement hsearch.searched hhit
      exact absurd hhit (hnone n hlow hin).not_read
  · refine ⟨value, -1, hneedle, by rw [hresult, hfound]; rfl, .inl rfl, fun i hi => ⟨?_, ?_⟩,
      fun _ => hnone, fun _ => rfl⟩
    · rintro rfl
      have hminus : (-1 : Int16).toInt = -1 := rfl
      omega
    · rintro ⟨hlow, hhit, _⟩
      have hin := Card.lt_length_of_getElement hsearch.searched hhit
      exact absurd hhit (hnone i hlow hin).not_read

/-- Bytes that have been copied into an array of shorts. -/
def copiedShorts : Session ConstantScore :=
  (step (.copy .atomic ⟨1⟩ 0 4 ⟨2⟩ 1) bytesAndShorts).state

/-- The short that is packed into the last two bytes is found where it was copied to. -/
theorem find_least_copiedShorts :
    (step (.find ⟨2⟩ 0 ⟨1⟩ 2) copiedShorts).result = .ok (.short 2) ∧
      ∃ value, copiedShorts.card.needle ⟨2⟩ ⟨1⟩ 2 = .ok value ∧
        copiedShorts.card.getElement ⟨2⟩ 2 = .ok value ∧
        ∀ j : Int16, (0 : Int16).toInt ≤ j.toInt → j.toInt < (2 : Int16).toInt →
          copiedShorts.card.Differs ⟨2⟩ value j := by
  have hbefore : bytesAndShorts.Reachable := reachable_fresh.run _
  have hreachable : copiedShorts.Reachable := hbefore.step _
  have hsearch : copiedShorts.card.Searchable ⟨2⟩ 0 ⟨1⟩ 2 ⟨.short, 3, .persistent, false⟩
      ⟨.byte, 4, .persistent, false⟩ :=
    { searched := rfl
      values := rfl
      numeric := by decide
      kinds := .inr rfl
      start := by decide
      position := by decide
      inValues := by decide }
  have hresult : (step (.find ⟨2⟩ 0 ⟨1⟩ 2) copiedShorts).result = .ok (.short 2) := by rfl
  obtain ⟨value, n, hneedle, hn, _, hleast, _⟩ :=
    (find_least hreachable ⟨2⟩ 0 ⟨1⟩ 2).2.2 _ _ hsearch
  rw [hresult, Except.ok.injEq, Reply.short.injEq] at hn
  obtain ⟨_, hhit, hbefore⟩ := (hleast 2 (by decide)).mp hn.symm
  exact ⟨hresult, value, hneedle, hhit, hbefore⟩

end Session

end SmartCard
