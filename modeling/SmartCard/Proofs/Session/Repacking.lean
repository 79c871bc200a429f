-- SUMMARY: Copies between element widths as arithmetic: exactly when they succeed, and the numbers that they make.
import SmartCard.Proofs.Range.Transfers

/-!
# Repacking copies

A copy moves bytes, but what it does is said in numbers: narrow elements become the digits of wide
ones, most significant first, and wide elements are taken apart into such digits (`Repacking.Done`).
It succeeds exactly if its ranges fit (`Repacking.Valid`) and nothing keeps it from writing.
-/

namespace SmartCard

variable {μ : Type} {c c' : Config}

/-- What the arguments of a copy mean to a card: what its arrays were made as, its ranges in
elements, and how many elements it makes. -/
structure Repacking where
  source : Descriptor
  destination : Descriptor
  start : Nat
  count : Nat
  target : Nat
  made : Nat
  deriving DecidableEq, Repr

namespace Repacking

/-- Whether arguments of a copy are in order, and mean this repacking. The elements of a destination
that is `n` times as wide take `n` elements of the source each, and those of a destination that is
`n` times as narrow are made `n` at a time. -/
structure Valid (r : Repacking) (card : Card) (source : ArrayRef)
    (sourceOffset sourceLength : Int16) (destination : ArrayRef) (destinationOffset : Int16) :
    Prop where
  source : card.descriptor source = .ok r.source
  destination : card.descriptor destination = .ok r.destination
  numeric : r.source.kind.isNumeric = true ∧ r.destination.kind.isNumeric = true
  start : sourceOffset.toInt = r.start
  count : sourceLength.toInt = r.count
  target : destinationOffset.toInt = r.target
  joins : ∀ n, r.destination.kind.width = n * r.source.kind.width → r.count = n * r.made
  splits : ∀ n, r.source.kind.width = n * r.destination.kind.width → r.made = n * r.count
  inSource : r.start + r.count ≤ r.source.length
  inDestination : r.target + r.made ≤ r.destination.length

/-- What a repacking makes of the elements of a card. -/
structure Done (r : Repacking) (source destination : ArrayRef) (before after : Card) : Prop where
  joined : ∀ n, r.destination.kind.width = n * r.source.kind.width → ∀ k < r.made,
    (after.unsigned destination)[r.target + k]? = some
      (Nat.ofDigits (256 ^ r.source.kind.width)
        (((before.unsigned source).drop (r.start + k * n)).take n).reverse)
  split : ∀ n, r.source.kind.width = n * r.destination.kind.width →
    ∀ k < r.count, ∀ j < n, ∃ value, (before.unsigned source)[r.start + k]? = some value ∧
      (after.unsigned destination)[r.target + k * n + j]? = some
        (value / 256 ^ (r.destination.kind.width * (n - 1 - j)) % 256 ^ r.destination.kind.width)
  elsewhere : ∀ i, i < r.target ∨ r.target + r.made ≤ i →
    (after.unsigned destination)[i]? = (before.unsigned destination)[i]?
  others : ∀ other, other ≠ destination →
    after.memory.store.table.find? other = before.memory.store.table.find? other

/-! ## Widths -/

/-- A wider element takes whole narrow ones. -/
theorem width_dvd_of_le {x y : Kind} (h : x.width ≤ y.width) : x.width ∣ y.width := by
  cases x <;> cases y <;> revert h <;> decide

/-- Elements of the source and of the destination take the same bytes. -/
theorem made_iff {x y : Kind} {count made : Nat} :
    made * y.width = count * x.width ↔
      (∀ n, y.width = n * x.width → count = n * made) ∧
      (∀ n, x.width = n * y.width → made = n * count) := by
  have hx := x.width_pos
  have hy := y.width_pos
  constructor
  · intro h
    refine ⟨fun n hn => ?_, fun n hn => ?_⟩
    · rw [hn, ← Nat.mul_assoc] at h
      rw [Nat.mul_comm n made]
      exact (Nat.mul_right_cancel hx h).symm
    · rw [hn, ← Nat.mul_assoc] at h
      rw [Nat.mul_comm n count]
      exact Nat.mul_right_cancel hy h
  · rintro ⟨hjoins, hsplits⟩
    rcases Nat.le_total x.width y.width with hle | hle
    · obtain ⟨n, hn⟩ := width_dvd_of_le hle
      rw [hjoins n (hn.trans (Nat.mul_comm _ _)), hn]
      ring
    · obtain ⟨n, hn⟩ := width_dvd_of_le hle
      rw [hsplits n (hn.trans (Nat.mul_comm _ _)), hn]
      ring

/-- The elements that are made are those that take the bytes of the source elements. -/
theorem repackedCount_eq_ok_iff {x y : Kind} {count made : Nat} :
    Range.repackedCount x y count = .ok made ↔ made * y.width = count * x.width := by
  refine ⟨Range.repackedCount_width, fun h => ?_⟩
  obtain ⟨hjoins, hsplits⟩ := made_iff.mp h
  have hx := x.width_pos
  have hy := y.width_pos
  unfold Range.repackedCount Kind.ratio?
  by_cases hlt : y.width < x.width
  · have hdvd := width_dvd_of_le (Nat.le_of_lt hlt)
    rw [if_pos hlt]
    dsimp only
    rw [hsplits _ (Nat.div_mul_cancel hdvd).symm, Nat.mul_comm]
  · have hle := Nat.not_lt.mp hlt
    have hdvd := width_dvd_of_le hle
    rw [if_neg hlt]
    dsimp only
    rw [hjoins _ (Nat.div_mul_cancel hdvd).symm, Nat.mul_mod_right, if_pos rfl,
      Nat.mul_div_cancel_left _ (Nat.div_pos hle hx)]

/-! ## Checks -/

variable {r : Repacking} {card before after : Card} {source destination : ArrayRef}
  {sourceOffset sourceLength destinationOffset : Int16} {o : Range.Output} {bytes : List UInt8}

theorem Valid.made_eq
    (h : r.Valid card source sourceOffset sourceLength destination destinationOffset) :
    r.made * r.destination.kind.width = r.count * r.source.kind.width :=
  made_iff.mpr ⟨h.joins, h.splits⟩

/-- Arguments in order pass all checks. -/
theorem Valid.output
    (h : r.Valid card source sourceOffset sourceLength destination destinationOffset)
    (hcard : card.memory.store.Sound c) :
    ∃ bytes, card.memory.store.read source (r.start * r.source.kind.width)
        (r.count * r.source.kind.width) = .ok bytes ∧
      (Range.Transfer.copy source sourceOffset sourceLength destination destinationOffset).output
        card.memory.store .atomic =
          .ok ⟨r.target * r.destination.kind.width, bytes, r.target + r.made⟩ := by
  have hd := (Card.descriptor_eq_ok_iff hcard).mp h.source
  have hd' := (Card.descriptor_eq_ok_iff hcard).mp h.destination
  have hx := Range.operand_of_numeric hcard hd h.numeric.1
  have hy := Range.operand_of_numeric hcard hd' h.numeric.2
  obtain ⟨bytes, hread⟩ := hcard.read_isOk hd (Descriptor.mul_width_le h.inSource)
  have hplan : Range.Copy.plan card.memory.store .atomic source sourceOffset sourceLength
      destination destinationOffset = .ok ⟨r.start * r.source.kind.width,
        r.count * r.source.kind.width, r.target * r.destination.kind.width, r.target, r.made⟩ := by
    have hstart : Range.natural .sourceOffset sourceOffset = .ok r.start :=
      Range.natural_eq_ok_iff.mpr (Range.index?_eq_some_iff.mpr h.start)
    have hcount : Range.natural .sourceLength sourceLength = .ok r.count :=
      Range.natural_eq_ok_iff.mpr (Range.index?_eq_some_iff.mpr h.count)
    have htarget : Range.natural .destinationOffset destinationOffset = .ok r.target :=
      Range.natural_eq_ok_iff.mpr (Range.index?_eq_some_iff.mpr h.target)
    have hsource : Range.checkRange .source ⟨source, r.source⟩ r.start r.count = .ok () :=
      Range.checkRange_eq_ok_iff.mpr h.inSource
    have hmade : Range.repackedCount r.source.kind r.destination.kind r.count = .ok r.made :=
      repackedCount_eq_ok_iff.mpr h.made_eq
    have hdestination : Range.checkRange .destination ⟨destination, r.destination⟩ r.target r.made =
        .ok () := Range.checkRange_eq_ok_iff.mpr h.inDestination
    simp only [Range.Copy.plan, Range.operands_of_ok hx hy, hstart, hcount, htarget, hsource,
      Range.Operand.kind, hmade, hdestination, Range.checkProtection, Range.Operand.width, bind,
      Except.bind, pure, Except.pure]
  refine ⟨bytes, hread, ?_⟩
  simp only [Range.Transfer.output, hplan, hread, bind, Except.bind, pure, Except.pure]

/-- What passes all checks is in order. -/
theorem valid_of_output (hcard : card.memory.store.Sound c)
    (ho : (Range.Transfer.copy source sourceOffset sourceLength destination
      destinationOffset).output card.memory.store .atomic = .ok o) :
    ∃ r : Repacking,
      r.Valid card source sourceOffset sourceLength destination destinationOffset := by
  obtain ⟨plan, hplan, _⟩ := bind_eq_ok_iff.mp ho
  obtain ⟨x, y, start, count, target, hx, hy, hstart, hcount, htarget, hsource, hmade, hdestination,
    _⟩ := Range.Copy.plan_eq_ok hplan
  obtain ⟨d, hd, hnumeric, rfl⟩ := Range.operand_eq_ok_iff.mp hx
  obtain ⟨d', hd', hnumeric', rfl⟩ := Range.operand_eq_ok_iff.mp hy
  obtain ⟨hjoins, hsplits⟩ := made_iff.mp (repackedCount_eq_ok_iff.mp hmade)
  exact ⟨⟨d, d', start, count, target, plan.elements⟩,
    { source := (Card.descriptor_eq_ok_iff hcard).mpr (hcard.descriptor_iff.mp hd)
      destination := (Card.descriptor_eq_ok_iff hcard).mpr (hcard.descriptor_iff.mp hd')
      numeric := ⟨hnumeric, hnumeric'⟩
      start := Range.index?_eq_some_iff.mp hstart
      count := Range.index?_eq_some_iff.mp hcount
      target := Range.index?_eq_some_iff.mp htarget
      joins := hjoins
      splits := hsplits
      inSource := hsource
      inDestination := hdestination }⟩

theorem exists_valid_iff (hcard : card.memory.store.Sound c) :
    (∃ r : Repacking,
      r.Valid card source sourceOffset sourceLength destination destinationOffset) ↔
    ∃ o, (Range.Transfer.copy source sourceOffset sourceLength destination
      destinationOffset).output card.memory.store .atomic = .ok o := by
  constructor
  · rintro ⟨r, hvalid⟩
    obtain ⟨bytes, -, ho⟩ := hvalid.output hcard
    exact ⟨_, ho⟩
  · rintro ⟨o, ho⟩
    exact valid_of_output hcard ho

/-! ## Elements that are made -/

/-- A source range that has been read, and the card that its bytes have been written to. -/
structure Moved (r : Repacking) (source destination : ArrayRef) (bytes : List UInt8)
    (before after : Card) : Prop where
  origin : before.memory.store.descriptor? source = some r.source
  into : before.memory.store.descriptor? destination = some r.destination
  read : before.memory.store.read source (r.start * r.source.kind.width)
    (r.count * r.source.kind.width) = .ok bytes
  made : r.made * r.destination.kind.width = r.count * r.source.kind.width
  inDestination : r.target + r.made ≤ r.destination.length
  store : after.memory.store = before.memory.store.withBytes destination
    (r.target * r.destination.kind.width) bytes

namespace Moved

variable (h : r.Moved source destination bytes before after)

include h

theorem length_eq : bytes.length = r.made * r.destination.kind.width :=
  (Store.length_of_read h.read).trans h.made.symm

theorem fits : r.target * r.destination.kind.width + bytes.length ≤ r.destination.byteLength := by
  rw [h.length_eq]
  exact Descriptor.mul_width_le h.inDestination

theorem destination_after : after.memory.store.descriptor? destination = some r.destination := by
  rw [h.store, Store.descriptor?_withBytes]
  exact h.into

/-- An element of the destination that is made holds its part of the bytes. -/
theorem element_made (hbefore : before.memory.store.Sound c) (hafter : after.memory.store.Sound c')
    {k : Nat} (hk : k < r.made) :
    (after.unsigned destination)[r.target + k]? = some (BigEndian.number
      ((bytes.drop (k * r.destination.kind.width)).take r.destination.kind.width)) := by
  have hpart : k * r.destination.kind.width + r.destination.kind.width ≤ bytes.length := by
    rw [h.length_eq]
    exact element_le hk
  refine Card.unsigned_getElem? hafter h.destination_after ?_
  rw [h.store, Nat.add_mul]
  exact hbefore.read_withBytes_inside h.into h.fits hpart

/-- Where the destination is wider, the bytes of an element that is made are those of `n` source
elements, which are its digits. -/
theorem joined (hbefore : before.memory.store.Sound c) (hafter : after.memory.store.Sound c')
    {n k : Nat} (hn : r.destination.kind.width = n * r.source.kind.width) (hk : k < r.made) :
    (after.unsigned destination)[r.target + k]? = some
      (Nat.ofDigits (256 ^ r.source.kind.width)
        (((before.unsigned source).drop (r.start + k * n)).take n).reverse) := by
  have hjoins := (made_iff.mp h.made).1 n hn
  have hrange : (k * n) * r.source.kind.width + n * r.source.kind.width ≤
      r.count * r.source.kind.width := by
    rw [← Nat.add_mul, ← Nat.succ_mul, hjoins, Nat.mul_comm n]
    exact Nat.mul_le_mul_right _ (Nat.mul_le_mul_right _ hk)
  have hread := Store.read_part h.read hrange
  rw [← Nat.add_mul] at hread
  rw [Card.unsigned_of_read hbefore h.origin hread,
    ← BigEndian.number_chunks r.source.kind.width_pos (Store.length_of_read hread),
    h.element_made hbefore hafter hk, hn, Nat.mul_assoc]

/-- Where the destination is narrower, a source element is made into its `n` digits. -/
theorem split (hbefore : before.memory.store.Sound c) (hafter : after.memory.store.Sound c')
    {n k j : Nat} (hn : r.source.kind.width = n * r.destination.kind.width) (hk : k < r.count)
    (hj : j < n) :
    ∃ value, (before.unsigned source)[r.start + k]? = some value ∧
      (after.unsigned destination)[r.target + k * n + j]? = some
        (value / 256 ^ (r.destination.kind.width * (n - 1 - j)) %
          256 ^ r.destination.kind.width) := by
  have hread := Store.read_part h.read (element_le hk)
  rw [← Nat.add_mul] at hread
  refine ⟨_, Card.unsigned_getElem? hbefore h.origin hread, ?_⟩
  have hmade : k * n + j < r.made := by
    rw [(made_iff.mp h.made).2 n hn, Nat.mul_comm n]
    exact Nat.lt_of_lt_of_le (Nat.add_lt_add_left hj _) (element_le hk)
  have hlength := Store.length_of_read hread
  have hpart : j * r.destination.kind.width + r.destination.kind.width ≤ r.source.kind.width := by
    rw [hn]
    exact element_le hj
  have hdigit := BigEndian.number_slice (hlength.symm ▸ hpart)
  have hexponent : r.source.kind.width - j * r.destination.kind.width -
      r.destination.kind.width = r.destination.kind.width * (n - 1 - j) := by
    rw [hn, ← Nat.sub_mul, ← Nat.sub_one_mul, Nat.mul_comm]
    congr 1
    omega
  rw [hlength, hexponent] at hdigit
  rw [Nat.add_assoc, h.element_made hbefore hafter hmade, ← hdigit, List.drop_take,
    List.take_take, List.drop_drop, Nat.min_eq_left (by omega), hn, Nat.add_mul, Nat.mul_assoc]

theorem elsewhere (hbefore : before.memory.store.Sound c) (hafter : after.memory.store.Sound c')
    {i : Nat} (hi : i < r.target ∨ r.target + r.made ≤ i) :
    (after.unsigned destination)[i]? = (before.unsigned destination)[i]? := by
  by_cases hlt : i < r.destination.length
  · obtain ⟨old, hread⟩ := hbefore.read_isOk h.into (element_le hlt)
    have hkept : after.memory.store.read destination (i * r.destination.kind.width)
        r.destination.kind.width = .ok old := by
      rw [h.store, ← hread]
      refine hbefore.read_withBytes_outside h.into h.fits fun _ => ?_
      rw [h.length_eq, ← Nat.add_mul, ← Nat.succ_mul]
      exact hi.imp (Nat.mul_le_mul_right _) (Nat.mul_le_mul_right _)
    rw [Card.unsigned_getElem? hbefore h.into hread,
      Card.unsigned_getElem? hafter h.destination_after hkept]
  · rw [List.getElem?_eq_none, List.getElem?_eq_none]
    · rw [Card.length_unsigned hbefore h.into]
      exact Nat.not_lt.mp hlt
    · rw [Card.length_unsigned hafter h.destination_after]
      exact Nat.not_lt.mp hlt

theorem done (hbefore : before.memory.store.Sound c) (hafter : after.memory.store.Sound c') :
    r.Done source destination before after where
  joined _ hn _ hk := h.joined hbefore hafter hn hk
  split _ hn _ hk _ hj := h.split hbefore hafter hn hk hj
  elsewhere _ hi := h.elsewhere hbefore hafter hi
  others := by
    intro other hother
    rw [h.store, Store.find?_withBytes_of_ne hother]

end Moved

/-- What a copy writes whose arguments are in order. -/
theorem Valid.fits
    (h : r.Valid card source sourceOffset sourceLength destination destinationOffset)
    (hcard : card.memory.store.Sound c) {d : Descriptor}
    (ho : (Range.Transfer.copy source sourceOffset sourceLength destination
      destinationOffset).output card.memory.store .atomic = .ok o)
    (hfits : (Range.Transfer.copy source sourceOffset sourceLength destination
      destinationOffset).Fits card.memory.store o d) :
    d = r.destination ∧ o.offset = r.target * r.destination.kind.width ∧
      o.bytes.length = r.made * r.destination.kind.width ∧ o.last = r.target + r.made ∧
      card.memory.store.read source (r.start * r.source.kind.width)
        (r.count * r.source.kind.width) = .ok o.bytes := by
  obtain ⟨bytes, hread, ho'⟩ := h.output hcard
  rw [ho, Except.ok.injEq] at ho'
  subst ho'
  have hd := (Card.descriptor_eq_ok_iff hcard).mp h.destination
  have hd' := hfits.destination
  rw [Range.Transfer.destination, hd, Option.some.injEq] at hd'
  exact ⟨hd'.symm, rfl, (Store.length_of_read hread).trans h.made_eq.symm, rfl, hread⟩

end Repacking

namespace Session

variable [Matcher μ] {s : Session μ} {p : Range.Protection} {source destination : ArrayRef}
  {sourceOffset sourceLength destinationOffset : Int16} {reply : Reply}

/-- A copy that succeeds has moved the bytes of its source. -/
theorem copy_moves (hs : s.Sound) (hok : (step
      (.copy p source sourceOffset sourceLength destination destinationOffset) s).result =
    .ok reply) :
    ∃ (r : Repacking) (bytes : List UInt8) (next : Int16),
      r.Valid s.card source sourceOffset sourceLength destination destinationOffset ∧
        reply = .short next ∧ next.toInt = r.target + r.made ∧
        r.Moved source destination bytes s.card
          (step (.copy p source sourceOffset sourceLength destination destinationOffset)
            s).state.card := by
  have hstore := hs.memory.store
  let t : Range.Transfer :=
    .copy source sourceOffset sourceLength destination destinationOffset
  obtain ⟨o, d, ho, hfits, rfl, hleft, _⟩ := transfer_done (t := t) hs hok
  obtain ⟨r, hvalid⟩ := Repacking.valid_of_output hstore ho
  obtain ⟨rfl, hoffset, hlength, hlast, hread⟩ := hvalid.fits hstore ho hfits
  refine ⟨r, o.bytes, Int16.ofNat o.last, hvalid, rfl, ?_, ?_⟩
  · rw [hfits.toInt_last, hlast]
    rfl
  · exact
      { origin := (Card.descriptor_eq_ok_iff hstore).mp hvalid.source
        into := hfits.destination
        read := hread
        made := hvalid.made_eq
        inDestination := hvalid.inDestination
        store := hoffset ▸ hleft }

/-- A copy succeeds exactly if its arguments are in order and nothing keeps it from writing. -/
theorem copy_isOk_iff (hs : s.Sound) :
    (∃ reply, (step
      (.copy p source sourceOffset sourceLength destination destinationOffset) s).result =
        .ok reply) ↔
    ∃ r : Repacking,
      r.Valid s.card source sourceOffset sourceLength destination destinationOffset ∧
        Range.Unhindered p s.card.memory r.destination
          (r.made * r.destination.kind.width) := by
  have hstore := hs.memory.store
  let t : Range.Transfer :=
    .copy source sourceOffset sourceLength destination destinationOffset
  have hiff := transfer_isOk_iff (p := p) (t := t) hs
  refine hiff.trans ⟨?_, ?_⟩
  · rintro ⟨o, d, ho, hfits, hfree⟩
    obtain ⟨r, hvalid⟩ := Repacking.valid_of_output hstore ho
    obtain ⟨rfl, -, hlength, -, -⟩ := hvalid.fits hstore ho hfits
    exact ⟨r, hvalid, hlength ▸ hfree⟩
  · rintro ⟨r, hvalid, hfree⟩
    obtain ⟨bytes, -, ho⟩ := hvalid.output hstore
    obtain ⟨d, hfits⟩ := Range.Transfer.fits_of_output hstore ho
    obtain ⟨rfl, -, hlength, -, -⟩ := hvalid.fits hstore ho hfits
    exact ⟨_, _, ho, hfits, hlength ▸ hfree⟩

/-- A repacking copy meets its numeric specification. Unless power is lost, the commit buffer is
full or the destination is not to be written without logging, it succeeds exactly if its arguments
are in order; it succeeds exactly if moreover the tear budget covers its bytes, the commit buffer
has room for them if they are logged, and the destination may be written so. Then it has joined or
split the source elements as they were before, changed nothing else, and returned the index after
the last element it made. -/
theorem copy_repacks (hreachable : s.Reachable) (p : Range.Protection) (source : ArrayRef)
    (sourceOffset sourceLength : Int16) (destination : ArrayRef) (destinationOffset : Int16) :
    let o := step (.copy p source sourceOffset sourceLength destination destinationOffset) s
    ((∀ e, o.result = .error e → ¬e.Hinders destination) →
      ((∃ reply, o.result = .ok reply) ↔ ∃ r : Repacking,
        r.Valid s.card source sourceOffset sourceLength destination destinationOffset)) ∧
    ((∃ reply, o.result = .ok reply) ↔ ∃ r : Repacking,
      r.Valid s.card source sourceOffset sourceLength destination destinationOffset ∧
        Range.Unhindered p s.card.memory r.destination
          (r.made * r.destination.kind.width)) ∧
    (∀ reply, o.result = .ok reply → ∃ (r : Repacking) (next : Int16),
      r.Valid s.card source sourceOffset sourceLength destination destinationOffset ∧
        reply = .short next ∧ next.toInt = destinationOffset.toInt + r.made ∧
        r.Done source destination s.card o.state.card) := by
  have hs := hreachable.sound
  have hstore := hs.memory.store
  refine ⟨fun hplain => ?_, copy_isOk_iff hs, fun reply hok => ?_⟩
  · have hpassed := transfer_isOk_iff_of_plain (p := p)
      (t := .copy source sourceOffset sourceLength destination destinationOffset) hs hplain
    exact hpassed.trans (Repacking.exists_valid_iff hstore).symm
  · obtain ⟨r, bytes, next, hvalid, rfl, hnext, hmoved⟩ := copy_moves hs hok
    refine ⟨r, next, hvalid, rfl, ?_, hmoved.done hstore (hs.step _).memory.store⟩
    rw [hnext, hvalid.target]

/-- A card with four bytes and an array of shorts. -/
def bytesAndShorts : Session ConstantScore :=
  (run fresh [.makePersistent .byte 4, .makePersistent .short 3, .setElement ⟨1⟩ 0 18,
    .setElement ⟨1⟩ 1 52, .setElement ⟨1⟩ 2 (-1), .setElement ⟨1⟩ 3 1]).2

/-- The four bytes are joined into the last two shorts. -/
theorem copy_repacks_bytesAndShorts :
    (step (.copy .atomic ⟨1⟩ 0 4 ⟨2⟩ 1) bytesAndShorts).result = .ok (.short 3) ∧
      ∃ r : Repacking, r.Valid bytesAndShorts.card ⟨1⟩ 0 4 ⟨2⟩ 1 ∧
        r.Done ⟨1⟩ ⟨2⟩ bytesAndShorts.card
          (step (.copy .atomic ⟨1⟩ 0 4 ⟨2⟩ 1) bytesAndShorts).state.card := by
  have hreachable : bytesAndShorts.Reachable := reachable_fresh.run _
  have hresult : (step (.copy .atomic ⟨1⟩ 0 4 ⟨2⟩ 1) bytesAndShorts).result =
      .ok (.short 3) := by rfl
  obtain ⟨r, _, hvalid, _, _, hdone⟩ :=
    (copy_repacks hreachable .atomic ⟨1⟩ 0 4 ⟨2⟩ 1).2.2 _ hresult
  exact ⟨hresult, r, hvalid, hdone⟩

end Session

end SmartCard
