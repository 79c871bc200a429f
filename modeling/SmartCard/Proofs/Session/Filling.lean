-- SUMMARY: Fills element by element: exactly when they succeed, what they leave, and that single writes of the value leave the same.
import SmartCard.Proofs.Session.StoredValues

/-!
# Fills

A fill repeats one element, as it was before the call, over a range (`Filling.Done`). It succeeds
exactly if its arguments are in order (`Filling.Valid`) and nothing keeps it from writing. Setting
the elements of the range to the value one after the other leaves the same store.
-/

namespace SmartCard

variable {μ : Type} {c : Config}

/-- Set `count` elements from the index `start` on to a value, one after the other. -/
def Command.setEach (array : ArrayRef) (start count : Nat) (value : Int32) : List (Command μ) :=
  (List.range count).map fun i => .setElement array (Int16.ofNat (start + i)) value

theorem Command.setEach_eq (array : ArrayRef) (start count : Nat) (value : Int32) :
    setEach (μ := μ) array start count value =
      setFrom array start (List.replicate count value) := by
  induction count generalizing start with
  | zero => rfl
  | succ count ih =>
    rw [List.replicate_succ, setFrom, ← ih, setEach, List.range_succ_eq_map, List.map_cons,
      List.map_map, setEach]
    simp [Function.comp_def, Nat.add_right_comm, Nat.add_assoc]

/-- What the arguments of a fill mean to a card: what its arrays were made as, its range in
elements, and the index of the value. -/
structure Filling where
  descriptor : Descriptor
  values : Descriptor
  start : Nat
  count : Nat
  position : Nat
  deriving DecidableEq, Repr

namespace Filling

/-- Whether arguments of a fill are in order, and mean this filling. -/
structure Valid (f : Filling) (card : Card) (array : ArrayRef) (offset length : Int16)
    (valueArray : ArrayRef) (valueOffset : Int16) : Prop where
  descriptor : card.descriptor array = .ok f.descriptor
  values : card.descriptor valueArray = .ok f.values
  numeric : f.descriptor.kind.isNumeric = true
  kinds : f.values.kind = f.descriptor.kind
  start : offset.toInt = f.start
  count : length.toInt = f.count
  position : valueOffset.toInt = f.position
  inArray : f.start + f.count ≤ f.descriptor.length
  inValues : f.position < f.values.length

/-- What a filling makes of a card: the elements of the range are read as the value that there was
before, and all other bytes are as they were. -/
structure Done (f : Filling) (array valueArray : ArrayRef) (valueOffset : Int16) (value : Int32)
    (before after : Card) : Prop where
  given : before.getElement valueArray valueOffset = .ok value
  filled : ∀ index : Int16, f.start ≤ index.toInt → index.toInt < f.start + f.count →
    after.getElement array index = .ok value
  elsewhere : ∀ other i,
    ¬(other = array ∧ f.start * f.descriptor.kind.width ≤ i ∧
      i < (f.start + f.count) * f.descriptor.kind.width) →
    after.memory.store.byte? other i = before.memory.store.byte? other i

/-! ## Checks -/

variable {f : Filling} {card before after : Card} {array valueArray : ArrayRef}
  {offset length valueOffset : Int16} {o : Range.Output} {element : List UInt8} {n j : Nat}

/-- Arguments in order pass all checks. -/
theorem Valid.output (h : f.Valid card array offset length valueArray valueOffset)
    (hcard : card.memory.store.Sound c) :
    ∃ element, card.memory.store.read valueArray (f.position * f.descriptor.kind.width)
        f.descriptor.kind.width = .ok element ∧
      (Range.Transfer.fill array offset length valueArray valueOffset).output card.memory.store
        .atomic = .ok ⟨f.start * f.descriptor.kind.width, (List.replicate f.count element).flatten,
          f.start + f.count⟩ := by
  have hd := (Card.descriptor_eq_ok_iff hcard).mp h.descriptor
  have hd' := (Card.descriptor_eq_ok_iff hcard).mp h.values
  have hx := Range.operand_of_numeric hcard hd h.numeric
  have hy := Range.operand_of_numeric hcard hd' (h.kinds ▸ h.numeric)
  have hplan : Range.Fill.plan card.memory.store .atomic array offset length valueArray
      valueOffset = .ok ⟨f.start, f.count, f.descriptor.kind.width, f.position⟩ := by
    have hkinds : Range.checkKinds ⟨array, f.descriptor⟩ ⟨valueArray, f.values⟩ = .ok () :=
      Range.checkKinds_eq_ok_iff.mpr h.kinds.symm
    have hstart : Range.natural .fillOffset offset = .ok f.start :=
      Range.natural_eq_ok_iff.mpr (Range.index?_eq_some_iff.mpr h.start)
    have hcount : Range.natural .fillLength length = .ok f.count :=
      Range.natural_eq_ok_iff.mpr (Range.index?_eq_some_iff.mpr h.count)
    have hposition : Range.natural .valueOffset valueOffset = .ok f.position :=
      Range.natural_eq_ok_iff.mpr (Range.index?_eq_some_iff.mpr h.position)
    have harray : Range.checkRange .fill ⟨array, f.descriptor⟩ f.start f.count = .ok () :=
      Range.checkRange_eq_ok_iff.mpr h.inArray
    have hvalues : Range.checkRange .value ⟨valueArray, f.values⟩ f.position 1 = .ok () :=
      Range.checkRange_eq_ok_iff.mpr h.inValues
    simp only [Range.Fill.plan, Range.operands_of_ok hx hy, hkinds, hstart, hcount, hposition,
      harray, hvalues, Range.checkProtection, Range.Operand.width, Range.Operand.kind, bind,
      Except.bind, pure, Except.pure]
  obtain ⟨element, hread⟩ := Range.Fill.read_isOk hcard hplan
  refine ⟨element, hread, ?_⟩
  dsimp only at hread
  simp only [Range.Transfer.output, hplan, hread, bind, Except.bind, pure, Except.pure]

/-- What passes all checks is in order. -/
theorem valid_of_output (hcard : card.memory.store.Sound c)
    (ho : (Range.Transfer.fill array offset length valueArray valueOffset).output card.memory.store
      .atomic = .ok o) :
    ∃ f : Filling, f.Valid card array offset length valueArray valueOffset := by
  obtain ⟨plan, hplan, _⟩ := bind_eq_ok_iff.mp ho
  obtain ⟨x, y, hx, hy, hkinds, hstart, hcount, hposition, harray, hvalues, _⟩ :=
    Range.Fill.plan_eq_ok hplan
  obtain ⟨d, hd, hnumeric, rfl⟩ := Range.operand_eq_ok_iff.mp hx
  obtain ⟨d', hd', _, rfl⟩ := Range.operand_eq_ok_iff.mp hy
  exact ⟨⟨d, d', plan.offset, plan.count, plan.valueOffset⟩,
    { descriptor := (Card.descriptor_eq_ok_iff hcard).mpr (hcard.descriptor_iff.mp hd)
      values := (Card.descriptor_eq_ok_iff hcard).mpr (hcard.descriptor_iff.mp hd')
      numeric := hnumeric
      kinds := hkinds.symm
      start := Range.index?_eq_some_iff.mp hstart
      count := Range.index?_eq_some_iff.mp hcount
      position := Range.index?_eq_some_iff.mp hposition
      inArray := harray
      inValues := hvalues }⟩

theorem exists_valid_iff (hcard : card.memory.store.Sound c) :
    (∃ f : Filling, f.Valid card array offset length valueArray valueOffset) ↔
    ∃ o, (Range.Transfer.fill array offset length valueArray valueOffset).output card.memory.store
      .atomic = .ok o := by
  constructor
  · rintro ⟨f, hvalid⟩
    obtain ⟨element, -, ho⟩ := hvalid.output hcard
    exact ⟨_, ho⟩
  · rintro ⟨o, ho⟩
    exact valid_of_output hcard ho

/-! ## Repeated elements -/

theorem length_repeated (n : Nat) (element : List UInt8) :
    (List.replicate n element).flatten.length = n * element.length := by
  simp

/-- Each part of repeated elements is the element. -/
theorem take_drop_repeated (element : List UInt8) (hj : j < n) :
    ((List.replicate n element).flatten.drop (j * element.length)).take element.length =
      element := by
  obtain ⟨rest, rfl⟩ := Nat.exists_eq_add_of_lt hj
  have hsplit : (List.replicate (j + rest + 1) element).flatten =
      (List.replicate j element).flatten ++ (element ++ (List.replicate rest element).flatten) := by
    rw [Nat.add_assoc, List.replicate_add, Nat.add_comm rest, List.replicate_add,
      List.flatten_append, List.flatten_append]
    simp
  rw [hsplit, List.drop_left' (length_repeated j element), List.take_left' rfl]

/-- A value that has been read, and the card that it has been repeated on. -/
structure Repeated (f : Filling) (array valueArray : ArrayRef) (valueOffset : Int16)
    (element : List UInt8) (before after : Card) : Prop where
  found : before.memory.store.descriptor? array = some f.descriptor
  value : before.getElement valueArray valueOffset = .ok (f.descriptor.kind.decode element)
  width : element.length = f.descriptor.kind.width
  inArray : f.start + f.count ≤ f.descriptor.length
  store : after.memory.store = before.memory.store.withBytes array
    (f.start * f.descriptor.kind.width) (List.replicate f.count element).flatten

namespace Repeated

variable (h : f.Repeated array valueArray valueOffset element before after)

include h

theorem length_eq : (List.replicate f.count element).flatten.length =
    f.count * f.descriptor.kind.width := by
  rw [length_repeated, h.width]

theorem fits : f.start * f.descriptor.kind.width + (List.replicate f.count element).flatten.length ≤
    f.descriptor.byteLength := by
  rw [h.length_eq]
  exact Descriptor.mul_width_le h.inArray

theorem done (hbefore : before.memory.store.Sound c) :
    f.Done array valueArray valueOffset (f.descriptor.kind.decode element) before after where
  given := h.value
  filled := by
    intro index hlow hhigh
    obtain ⟨j, hj⟩ : ∃ j : Nat, index.toInt = (f.start + j : Nat) :=
      ⟨index.toInt.toNat - f.start, by omega⟩
    have hlt : j < f.count := by omega
    have hpart : j * f.descriptor.kind.width + f.descriptor.kind.width ≤
        (List.replicate f.count element).flatten.length := by
      rw [h.length_eq]
      exact element_le hlt
    have hrepeated := take_drop_repeated element hlt
    rw [h.width] at hrepeated
    have hin := h.inArray
    have hfilled := Card.getElement_written hbefore h.found h.fits h.store
      (Range.index?_eq_some_iff.mpr hj) (by omega) (Nat.add_mul _ _ _) hpart
    rwa [hrepeated] at hfilled
  elsewhere := by
    intro other i hout
    rw [h.store]
    refine hbefore.byte?_withBytes_outside h.found h.fits ?_
    rwa [h.length_eq, ← Nat.add_mul]

end Repeated

/-- What a fill writes whose arguments are in order. -/
theorem Valid.fits (h : f.Valid card array offset length valueArray valueOffset)
    (hcard : card.memory.store.Sound c) {d : Descriptor}
    (ho : (Range.Transfer.fill array offset length valueArray valueOffset).output card.memory.store
      .atomic = .ok o)
    (hfits : (Range.Transfer.fill array offset length valueArray valueOffset).Fits
      card.memory.store o d) :
    d = f.descriptor ∧ o.offset = f.start * f.descriptor.kind.width ∧
      o.last = f.start + f.count ∧ ∃ element, element.length = f.descriptor.kind.width ∧
        card.getElement valueArray valueOffset = .ok (f.descriptor.kind.decode element) ∧
        o.bytes = (List.replicate f.count element).flatten := by
  obtain ⟨element, hread, ho'⟩ := h.output hcard
  rw [ho, Except.ok.injEq] at ho'
  subst ho'
  have hd := (Card.descriptor_eq_ok_iff hcard).mp h.descriptor
  have hd' := hfits.destination
  rw [Range.Transfer.destination, hd, Option.some.injEq] at hd'
  have hvalue := Card.getElement_of_read h.values (Range.index?_eq_some_iff.mpr h.position)
    h.inValues (h.kinds ▸ hread)
  rw [h.kinds] at hvalue
  exact ⟨hd'.symm, rfl, rfl, element, Store.length_of_read hread, hvalue, rfl⟩

end Filling

namespace Session

variable [Matcher μ] {s : Session μ} {d : Descriptor} {array valueArray : ArrayRef}
  {offset length valueOffset : Int16} {p : Range.Protection} {element : List UInt8}
  {start count : Nat}

/-! ## Single writes -/

/-- Setting elements one after the other to a value leaves its bytes, repeated, unless it meets a
want of power or room. -/
theorem setEach_ends (hs : s.Sound) (hd : s.card.memory.store.descriptor? array = some d)
    (helement : element.length = d.kind.width) (hrange : start + count ≤ d.length)
    (hplain : ∀ e, .error e ∈
        (run s (Command.setEach array start count (d.kind.decode element))).1 →
      e.isPowerLoss = false ∧ e.isBufferFull = false) :
    (∀ result ∈ (run s (Command.setEach array start count (d.kind.decode element))).1,
      result = .ok .done) ∧
    (run s (Command.setEach array start count (d.kind.decode element))).2.card.memory.store =
      s.card.memory.store.withBytes array (start * d.kind.width)
        (List.replicate count element).flatten := by
  have hbytes : (List.replicate count (d.kind.decode element)).flatMap d.kind.encode =
      (List.replicate count element).flatten := by
    rw [List.flatMap_def, List.map_replicate, Kind.encode_decode helement]
  rw [Command.setEach_eq] at hplain ⊢
  rw [← hbytes]
  exact setFrom_leaves hs hd (by rwa [List.length_replicate]) hplain

/-! ## Fills -/

/-- A fill succeeds exactly if its arguments are in order and nothing keeps it from writing. -/
theorem fill_isOk_iff (hs : s.Sound) :
    (∃ reply, (step (.fill p array offset length valueArray valueOffset) s).result = .ok reply) ↔
    ∃ f : Filling, f.Valid s.card array offset length valueArray valueOffset ∧
      Range.Unhindered p s.card.memory f.descriptor (f.count * f.descriptor.kind.width) := by
  have hstore := hs.memory.store
  have hiff := transfer_isOk_iff (p := p)
    (t := .fill array offset length valueArray valueOffset) hs
  refine hiff.trans ⟨?_, ?_⟩
  · rintro ⟨o, d, ho, hfits, hfree⟩
    obtain ⟨f, hvalid⟩ := Filling.valid_of_output hstore ho
    obtain ⟨rfl, -, -, element, hwidth, -, hbytes⟩ := hvalid.fits hstore ho hfits
    rw [hbytes, Filling.length_repeated, hwidth] at hfree
    exact ⟨f, hvalid, hfree⟩
  · rintro ⟨f, hvalid, hfree⟩
    obtain ⟨_, -, ho⟩ := hvalid.output hstore
    obtain ⟨d, hfits⟩ := Range.Transfer.fits_of_output hstore ho
    obtain ⟨rfl, -, -, element, hwidth, -, hbytes⟩ := hvalid.fits hstore ho hfits
    refine ⟨_, _, ho, hfits, ?_⟩
    rw [hbytes, Filling.length_repeated, hwidth]
    exact hfree

/-- A fill equals an element-by-element fill. Unless power is lost, the commit buffer is full or the
array is not to be written without logging, it succeeds exactly if its arguments are in order; it
succeeds exactly if moreover the tear budget covers its bytes, the commit buffer has room for them
if they are logged, and the array may be written so. Then every element of the range is the value as
it was before, every other byte of the card is as it was, the index after the range is returned, and
a fill of no elements leaves the whole card as it was. Setting the elements of the range to that
value one after the other from the same state succeeds each time and leaves the same store, unless
power is lost or the commit buffer gets full on the way. -/
theorem fill_repeats (hreachable : s.Reachable) (p : Range.Protection) (array : ArrayRef)
    (offset length : Int16) (valueArray : ArrayRef) (valueOffset : Int16) :
    let o := step (.fill p array offset length valueArray valueOffset) s
    ((∀ e, o.result = .error e → ¬e.Hinders array) →
      ((∃ reply, o.result = .ok reply) ↔
        ∃ f : Filling, f.Valid s.card array offset length valueArray valueOffset)) ∧
    ((∃ reply, o.result = .ok reply) ↔ ∃ f : Filling,
      f.Valid s.card array offset length valueArray valueOffset ∧
        Range.Unhindered p s.card.memory f.descriptor (f.count * f.descriptor.kind.width)) ∧
    (∀ reply, o.result = .ok reply → ∃ (f : Filling) (next : Int16) (value : Int32),
      f.Valid s.card array offset length valueArray valueOffset ∧
        reply = .short next ∧ next.toInt = offset.toInt + length.toInt ∧
        f.Done array valueArray valueOffset value s.card o.state.card ∧
        (length = 0 → o.state.card = s.card) ∧
        ((∀ e, .error e ∈ (run s (Command.setEach array f.start f.count value)).1 →
            e.isPowerLoss = false ∧ e.isBufferFull = false) →
          (∀ result ∈ (run s (Command.setEach array f.start f.count value)).1,
            result = .ok .done) ∧
          (run s (Command.setEach array f.start f.count value)).2.card.memory.store =
            o.state.card.memory.store)) := by
  have hs := hreachable.sound
  have hstore := hs.memory.store
  let t : Range.Transfer := .fill array offset length valueArray valueOffset
  refine ⟨fun hplain => ?_, fill_isOk_iff hs, fun reply hok => ?_⟩
  · have hpassed := transfer_isOk_iff_of_plain (p := p) (t := t) hs hplain
    exact hpassed.trans (Filling.exists_valid_iff hstore).symm
  · obtain ⟨o, d, ho, hfits, rfl, hleft, hnothing⟩ := transfer_done (t := t) hs hok
    obtain ⟨f, hvalid⟩ := Filling.valid_of_output hstore ho
    obtain ⟨rfl, hoffset, hlast, element, hwidth, hvalue, hbytes⟩ := hvalid.fits hstore ho hfits
    rw [hoffset, hbytes] at hleft
    have hrepeated : f.Repeated array valueArray valueOffset element s.card
        (step (t.command p) s).state.card :=
      ⟨hfits.destination, hvalue, hwidth, hvalid.inArray, hleft⟩
    refine ⟨f, Int16.ofNat o.last, f.descriptor.kind.decode element, hvalid, rfl, ?_,
      hrepeated.done hstore, fun hzero => hnothing ?_, fun hplain => ?_⟩
    · rw [hfits.toInt_last, hlast, hvalid.start, hvalid.count]
      rfl
    · have hcount := hvalid.count
      rw [hzero, Int16.toInt_zero] at hcount
      rw [hbytes, show f.count = 0 by omega]
      rfl
    · obtain ⟨hdone, hsame⟩ :=
        setEach_ends hs hfits.destination hwidth hvalid.inArray hplain
      exact ⟨hdone, hsame.trans hleft.symm⟩

/-- Three elements of an array are filled with one of them. -/
theorem fill_repeats_oneArray :
    (step (.fill .atomic ⟨1⟩ 1 3 ⟨1⟩ 3) oneArray).result = .ok (.short 4) ∧
      ∃ (f : Filling) (value : Int32), f.Valid oneArray.card ⟨1⟩ 1 3 ⟨1⟩ 3 ∧
        f.Done ⟨1⟩ ⟨1⟩ 3 value oneArray.card
          (step (.fill .atomic ⟨1⟩ 1 3 ⟨1⟩ 3) oneArray).state.card := by
  have hreachable : oneArray.Reachable := reachable_fresh.run _
  have hresult : (step (.fill .atomic ⟨1⟩ 1 3 ⟨1⟩ 3) oneArray).result = .ok (.short 4) := by rfl
  obtain ⟨f, _, value, hvalid, _, _, hdone, _⟩ :=
    (fill_repeats hreachable .atomic ⟨1⟩ 1 3 ⟨1⟩ 3).2.2 _ hresult
  exact ⟨hresult, f, value, hvalid, hdone⟩

end Session

end SmartCard
