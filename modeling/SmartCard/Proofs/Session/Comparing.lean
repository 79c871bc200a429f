-- SUMMARY: Comparisons of ranges as the unsigned lexicographic order: exactly when they are accepted, what they return, and the laws of an order.
import SmartCard.Proofs.Readings
import SmartCard.Proofs.Session.Repacking

/-!
# Comparing ranges

A comparison goes through two ranges until it meets elements that differ. What it returns is the
sign of the lexicographic order of the two sequences (`lexSign`), whether these are taken as
unsigned elements or as single bytes: elements are stored most significant byte first, so that their
bytes are ordered as their numbers are (`lexSign_chunks`). The laws of the order follow.
-/

namespace SmartCard

open BigEndian

variable {μ α : Type} {c : Config} {card : Card} {array : ArrayRef} {d : Descriptor}
  {start count width : Nat} {bytes : List UInt8}

/-! ## The order of sequences -/

/-- The sign of two sequences of numbers in lexicographic order: -1, 0 or 1. -/
def lexSign (xs ys : List Nat) : Int8 := if xs < ys then -1 else if ys < xs then 1 else 0

theorem lexSign_cons (x y : Nat) (xs ys : List Nat) :
    lexSign (x :: xs) (y :: ys) = if x < y then -1 else if y < x then 1 else lexSign xs ys := by
  simp only [lexSign, List.cons_lt_cons_iff]
  rcases Nat.lt_trichotomy x y with h | rfl | h
  · simp [h]
  · simp
  · simp [h, Nat.lt_asymm h, Nat.ne_of_gt h]

theorem lexSign_eq_zero_iff {xs ys : List Nat} : lexSign xs ys = 0 ↔ xs = ys := by
  rcases lt_trichotomy xs ys with h | rfl | h
  · simp [lexSign, h, h.ne]
  · simp [lexSign]
  · simp [lexSign, h, h.ne', h.not_gt]

theorem lexSign_le_zero_iff {xs ys : List Nat} : lexSign xs ys ≤ 0 ↔ xs ≤ ys := by
  rcases lt_trichotomy xs ys with h | rfl | h
  · simp [lexSign, h, h.le]
  · simp [lexSign]
  · simp [lexSign, h, h.not_gt, h.not_ge]

theorem lexSign_swap (xs ys : List Nat) : lexSign ys xs = -lexSign xs ys := by
  rcases lt_trichotomy xs ys with h | rfl | h
  · simp [lexSign, h, h.not_gt]
  · simp [lexSign]
  · simp [lexSign, h, h.not_gt]

/-- Sequences behind prefixes of one length count only if the prefixes agree. -/
theorem lexSign_append {xs ys : List Nat} (h : xs.length = ys.length) (xs' ys' : List Nat) :
    lexSign (xs ++ xs') (ys ++ ys') =
      if lexSign xs ys = 0 then lexSign xs' ys' else lexSign xs ys := by
  induction xs generalizing ys with
  | nil =>
    rw [List.eq_nil_of_length_eq_zero h.symm]
    rfl
  | cons x xs ih =>
    obtain ⟨y, ys, rfl⟩ := List.exists_cons_of_length_eq_add_one h.symm
    rw [List.cons_append, List.cons_append, lexSign_cons, lexSign_cons, ih (Nat.succ.inj h)]
    split
    · rfl
    · split <;> rfl

/-- At the first difference, the sign is that of the difference. -/
theorem lexSign_of_mismatch {xs ys : List Nat} {i a b : Nat} (hsame : xs.take i = ys.take i)
    (hx : xs[i]? = some a) (hy : ys[i]? = some b) (hne : a ≠ b) :
    (lexSign xs ys).toInt = Int.sign ((a : Int) - b) := by
  induction i generalizing xs ys with
  | zero =>
    rcases xs with _ | ⟨x, xs⟩
    · cases hx
    rcases ys with _ | ⟨y, ys⟩
    · cases hy
    obtain rfl : x = a := Option.some.inj hx
    obtain rfl : y = b := Option.some.inj hy
    rw [lexSign_cons]
    rcases Nat.lt_or_gt_of_ne hne with hlt | hgt
    · rw [if_pos hlt, Int.sign_eq_neg_one_of_neg (by omega)]
      rfl
    · rw [if_neg (Nat.lt_asymm hgt), if_pos hgt, Int.sign_eq_one_of_pos (by omega)]
      rfl
  | succ i ih =>
    rcases xs with _ | ⟨x, xs⟩
    · cases hx
    rcases ys with _ | ⟨y, ys⟩
    · cases hy
    rw [List.take_succ_cons, List.take_succ_cons, List.cons.injEq] at hsame
    obtain ⟨rfl, hrest⟩ := hsame
    rw [lexSign_cons, if_neg (Nat.lt_irrefl x), if_neg (Nat.lt_irrefl x)]
    exact ih hrest hx hy

/-! ## Elements and their bytes -/

theorem lexSign_singleton (x y : Nat) :
    lexSign [x] [y] = if x < y then -1 else if y < x then 1 else 0 := lexSign_cons x y [] []

/-- Numbers of the same width are ordered as the bytes that write them. -/
theorem lexSign_number {xs ys : List UInt8} (h : xs.length = ys.length) :
    lexSign [number xs] [number ys] = lexSign (xs.map UInt8.toNat) (ys.map UInt8.toNat) := by
  induction xs generalizing ys with
  | nil =>
    rw [List.eq_nil_of_length_eq_zero h.symm]
    rfl
  | cons x xs ih =>
    obtain ⟨y, ys, rfl⟩ := List.exists_cons_of_length_eq_add_one h.symm
    have hlength : xs.length = ys.length := Nat.succ.inj h
    have hx := number_lt xs
    have hy := number_lt ys
    rw [List.map_cons, List.map_cons, lexSign_singleton, lexSign_cons, ← ih hlength,
      lexSign_singleton, number_cons, number_cons, hlength]
    rw [hlength] at hx
    -- What follows the first bytes is less than one of them.
    have hfirst : ∀ {a b m n : Nat}, a < b → m < 256 ^ ys.length →
        a * 256 ^ ys.length + m < b * 256 ^ ys.length + n := by
      intro a b m n hlt hm
      have hstep := Nat.mul_le_mul_right (256 ^ ys.length) (Nat.succ_le_of_lt hlt)
      rw [Nat.succ_mul] at hstep
      omega
    rcases Nat.lt_trichotomy x.toNat y.toNat with hlt | heq | hgt
    · rw [if_pos hlt, if_pos (hfirst hlt hx)]
    · simp [heq]
    · rw [if_neg (Nat.lt_asymm hgt), if_pos hgt, if_neg (Nat.lt_asymm (hfirst hgt hy)),
        if_pos (hfirst hgt hy)]

/-- Elements are ordered as their bytes are. -/
theorem lexSign_chunks (hwidth : 0 < width) {xs ys : List UInt8} (hx : xs.length = count * width)
    (hy : ys.length = count * width) :
    lexSign ((chunks width xs).map number) ((chunks width ys).map number) =
      lexSign (xs.map UInt8.toNat) (ys.map UInt8.toNat) := by
  induction count generalizing xs ys with
  | zero =>
    rw [Nat.zero_mul, List.length_eq_zero_iff] at hx hy
    subst hx hy
    simp [chunks, chunksOnto]
  | succ count ih =>
    rw [Nat.succ_mul] at hx hy
    have hfirst : (xs.take width).length = width := by simp; omega
    have hfirst' : (ys.take width).length = width := by simp; omega
    have hmore : lexSign ((chunks width (xs.drop width)).map number)
        ((chunks width (ys.drop width)).map number) =
          lexSign ((xs.drop width).map UInt8.toNat) ((ys.drop width).map UInt8.toNat) :=
      ih (by simp; omega) (by simp; omega)
    have helements : ∀ {bytes : List UInt8}, (bytes.take width).length = width →
        (chunks width bytes).map number =
          [number (bytes.take width)] ++ (chunks width (bytes.drop width)).map number := by
      intro bytes hbytes
      conv_lhs => rw [← List.take_append_drop width bytes]
      rw [chunks_cons hwidth hbytes]
      rfl
    conv_rhs => rw [← List.take_append_drop width xs, ← List.take_append_drop width ys]
    have hone : ∀ x y : Nat, [x].length = [y].length := fun _ _ => rfl
    rw [helements hfirst, helements hfirst', List.map_append, List.map_append,
      lexSign_append (hone _ _),
      lexSign_append (by rw [List.length_map, List.length_map, hfirst, hfirst']),
      lexSign_number (hfirst.trans hfirst'.symm), hmore]

/-- The words of a payload are the numbers that its elements write. -/
theorem toNat_words (hwidth : width ≤ 4) (bytes : List UInt8) :
    (words width bytes).map UInt32.toNat = (chunks width bytes).map number := by
  rw [words, List.map_map]
  exact List.map_congr_left fun group hmem =>
    toNat_assemble (length_of_mem_chunks hmem ▸ hwidth)

/-- Words are compared by their numbers. -/
theorem Range.sign_compareElements {xs ys : List UInt32} (h : xs.length = ys.length)
    (examined : Nat) :
    (compareElements examined xs ys).1 = lexSign (xs.map UInt32.toNat) (ys.map UInt32.toNat) := by
  induction xs generalizing ys examined with
  | nil =>
    rw [List.eq_nil_of_length_eq_zero h.symm]
    rfl
  | cons x xs ih =>
    obtain ⟨y, ys, rfl⟩ := List.exists_cons_of_length_eq_add_one h.symm
    rw [compareElements, List.map_cons, List.map_cons, lexSign_cons, ← ih (Nat.succ.inj h)]
    simp only [UInt32.lt_iff_toNat_lt]
    split
    · rfl
    · split <;> rfl

/-- Ranges of two arrays of one kind pass all checks. -/
theorem Range.compared_of_ok {s : Store} {left right : ArrayRef}
    {leftOffset rightOffset length : Int16} {x y : Operand} {leftFrom rightFrom : Nat}
    {leftBytes rightBytes : List UInt8} (hx : operand s left = .ok x) (hy : operand s right = .ok y)
    (hkinds : x.kind = y.kind) (hleftFrom : index? leftOffset = some leftFrom)
    (hrightFrom : index? rightOffset = some rightFrom) (hcount : index? length = some count)
    (hinLeft : leftFrom + count ≤ x.length) (hinRight : rightFrom + count ≤ y.length)
    (hleft : s.read left (leftFrom * x.width) (count * x.width) = .ok leftBytes)
    (hright : s.read right (rightFrom * x.width) (count * x.width) = .ok rightBytes) :
    compared s left leftOffset right rightOffset length =
      .ok (compareElements 0 (words x.width leftBytes) (words x.width rightBytes)) := by
  have hchecked := checkKinds_eq_ok_iff.mpr hkinds
  have hleftRange : checkRange .source x leftFrom count = .ok () := checkRange_eq_ok_iff.mpr hinLeft
  have hrightRange : checkRange .destination y rightFrom count = .ok () :=
    checkRange_eq_ok_iff.mpr hinRight
  have hnatural : ∀ {value : Int16} {n : Nat}, index? value = some n →
      ∀ argument, natural argument value = .ok n :=
    fun hvalue _ => natural_eq_ok_iff.mpr hvalue
  simp only [compared, operands_of_ok hx hy, hchecked, hnatural hleftFrom, hnatural hrightFrom,
    hnatural hcount, hleftRange, hrightRange, hleft, hright, bind, Except.bind, pure, Except.pure]

/-! ## Ranges that are compared -/

/-- Elements that can be read lie within their array. -/
theorem Store.Sound.range_of_read {s : Store} (h : s.Sound c) (hd : s.descriptor? array = some d)
    (hread : s.read array (start * d.kind.width) (count * d.kind.width) = .ok bytes) :
    start + count ≤ d.length := by
  obtain ⟨cell, hfound, rfl⟩ := Table.descriptor?_eq_some_iff.mp hd
  obtain ⟨hrange, -⟩ := (h.read_iff hfound).mp hread
  rw [← Nat.add_mul] at hrange
  exact Nat.le_of_mul_le_mul_right hrange cell.descriptor.kind.width_pos

namespace Card

/-- So many elements of an array from an index on, as unsigned numbers of their kind. -/
def unsignedFrom (card : Card) (array : ArrayRef) (offset : Int16) (count : Nat) :
    Except Fault (List Nat) := do
  let d ← card.descriptor array
  let values ← card.readEach array offset.toInt.toNat count
  pure (values.map d.kind.unsigned)

/-- The bytes that these elements take. -/
def bytesFrom (card : Card) (array : ArrayRef) (offset : Int16) (count : Nat) :
    Except Fault (List UInt8) := do
  let d ← card.descriptor array
  let payload ← card.rawBytes array
  pure ((payload.drop (offset.toInt.toNat * d.kind.width)).take (count * d.kind.width))

/-- Whether two ranges of so many elements can be compared: both are of one kind of numbers. -/
def Comparable (card : Card) (left : ArrayRef) (leftOffset : Int16) (right : ArrayRef)
    (rightOffset : Int16) (count : Nat) : Prop :=
  ∃ kind : Kind, kind.isNumeric = true ∧ card.HasRange left kind leftOffset count ∧
    card.HasRange right kind rightOffset count

/-- What a comparison with the result `n` has seen: two sequences of elements, and their bytes. The
result is the sign of both. -/
structure Compared (card : Card) (left : ArrayRef) (leftOffset : Int16) (right : ArrayRef)
    (rightOffset : Int16) (count : Nat) (n : Int8) (xs ys : List Nat) (bs bs' : List UInt8) :
    Prop where
  leftElements : card.unsignedFrom left leftOffset count = .ok xs
  rightElements : card.unsignedFrom right rightOffset count = .ok ys
  leftLength : xs.length = count
  rightLength : ys.length = count
  sign : n = lexSign xs ys
  leftBytes : card.bytesFrom left leftOffset count = .ok bs
  rightBytes : card.bytesFrom right rightOffset count = .ok bs'
  signBytes : n = lexSign (bs.map UInt8.toNat) (bs'.map UInt8.toNat)

variable {kind : Kind} {left right third : ArrayRef}
  {offset leftOffset rightOffset thirdOffset length : Int16} (h : card.memory.store.Sound c)

include h

omit h in
theorem HasRange.kind_unique {kind' : Kind} {offset' : Int16} {count' : Nat}
    (hrange : card.HasRange array kind offset count)
    (hrange' : card.HasRange array kind' offset' count') : kind = kind' := by
  obtain ⟨d, hd, rfl, _⟩ := hrange
  obtain ⟨d', hd', rfl, _⟩ := hrange'
  rw [Except.ok.inj (hd.symm.trans hd')]

/-- A range is read as the numbers that its elements write. -/
theorem HasRange.read (hrange : card.HasRange array kind offset count) :
    ∃ start bytes, index? offset = some start ∧
      card.memory.store.read array (start * kind.width) (count * kind.width) = .ok bytes ∧
      card.unsignedFrom array offset count = .ok ((chunks kind.width bytes).map number) ∧
      card.bytesFrom array offset count = .ok bytes := by
  obtain ⟨d, start, hd, rfl, hoffset, hin⟩ := (hasRange_iff h).mp hrange
  obtain ⟨cell, hfound, rfl⟩ := Table.descriptor?_eq_some_iff.mp hd
  obtain ⟨bytes, hread⟩ := h.read_isOk hd (Descriptor.mul_width_le hin)
  have hlookup := (descriptor_eq_ok_iff h).mpr hd
  have hstart := (Range.index?_eq_some hoffset).1.symm
  refine ⟨start, bytes, hoffset, hread, ?_, ?_⟩
  · have hnumbers : (chunks cell.descriptor.kind.width bytes).map
        (cell.descriptor.kind.unsigned ∘ cell.descriptor.kind.decode) =
          (chunks cell.descriptor.kind.width bytes).map number :=
      List.map_congr_left fun group hmem => Kind.unsigned_decode (length_of_mem_chunks hmem)
    simp only [unsignedFrom, hlookup, hstart, readEach_of_read h hd hin hread, List.map_map,
      hnumbers, bind, Except.bind, pure, Except.pure]
  · simp only [bytesFrom, hlookup, hstart, rawBytes_of_found h hfound,
      ((h.read_iff hfound).mp hread).2, bind, Except.bind, pure, Except.pure]

/-- Ranges that can be compared pass all checks, and are. -/
theorem Comparable.compared (hcompare : card.Comparable left leftOffset right rightOffset count)
    (hcount : length.toInt = count) :
    ∃ n examined xs ys bs bs',
      card.Compared left leftOffset right rightOffset count n xs ys bs bs' ∧
      Range.compared card.memory.store left leftOffset right rightOffset length =
        .ok (n, examined) := by
  obtain ⟨kind, hnumeric, hleft, hright⟩ := hcompare
  obtain ⟨leftStart, bytes, hleftOffset, hread, hxs, hbs⟩ := hleft.read h
  obtain ⟨rightStart, bytes', hrightOffset, hread', hys, hbs'⟩ := hright.read h
  have hcompared : Range.compared card.memory.store left leftOffset right rightOffset length =
      .ok (Range.compareElements 0 (words kind.width bytes) (words kind.width bytes')) := by
    obtain ⟨d, start, hd, rfl, hstart, hin⟩ := (hasRange_iff h).mp hleft
    obtain ⟨d', start', hd', hkind, hstart', hin'⟩ := (hasRange_iff h).mp hright
    obtain rfl : start = leftStart := Option.some.inj (hstart.symm.trans hleftOffset)
    obtain rfl : start' = rightStart := Option.some.inj (hstart'.symm.trans hrightOffset)
    have hx := Range.operand_of_numeric h hd hnumeric
    have hy := Range.operand_of_numeric h hd' (hkind ▸ hnumeric)
    exact Range.compared_of_ok hx hy hkind.symm hstart hstart' (Range.index?_eq_some_iff.mpr hcount)
      hin hin' hread hread'
  have hlength := Range.length_words kind.width_pos (Store.length_of_read hread)
  have hlength' := Range.length_words kind.width_pos (Store.length_of_read hread')
  have hsign := Range.sign_compareElements (hlength.trans hlength'.symm) 0
  rw [toNat_words kind.width_le_four, toNat_words kind.width_le_four] at hsign
  refine ⟨_, _, (chunks kind.width bytes).map number, (chunks kind.width bytes').map number, bytes,
    bytes', ?_, hcompared.trans (congrArg Except.ok (Prod.ext hsign rfl))⟩
  exact
    { leftElements := hxs
      rightElements := hys
      leftLength := by rw [← hlength, ← toNat_words kind.width_le_four, List.length_map]
      rightLength := by rw [← hlength', ← toNat_words kind.width_le_four, List.length_map]
      sign := rfl
      leftBytes := hbs
      rightBytes := hbs'
      signBytes := lexSign_chunks kind.width_pos (Store.length_of_read hread)
        (Store.length_of_read hread') }

/-- What passes all checks can be compared. -/
theorem comparable_of_compared {r : Int8 × Nat}
    (hok : Range.compared card.memory.store left leftOffset right rightOffset length = .ok r) :
    ∃ count : Nat, length.toInt = count ∧
      card.Comparable left leftOffset right rightOffset count := by
  obtain ⟨x, y, start, start', count, _, _, hx, hy, hkinds, hstart, hstart', hcount, hread, hread',
    _⟩ := Range.compared_eq_ok hok
  obtain ⟨d, hd, hnumeric, rfl⟩ := Range.operand_eq_ok_iff.mp hx
  obtain ⟨d', hd', _, rfl⟩ := Range.operand_eq_ok_iff.mp hy
  change d.kind = d'.kind at hkinds
  change card.memory.store.read left (start * d.kind.width) (count * d.kind.width) = _ at hread
  change card.memory.store.read right (start' * d.kind.width) (count * d.kind.width) = _ at hread'
  have hfound := h.descriptor_iff.mp hd
  have hfound' := h.descriptor_iff.mp hd'
  refine ⟨count, Range.index?_eq_some_iff.mp hcount, d.kind, hnumeric, ?_, ?_⟩
  · exact (hasRange_iff h).mpr ⟨d, start, hfound, rfl, hstart, h.range_of_read hfound hread⟩
  · rw [hkinds] at hread'
    exact (hasRange_iff h).mpr
      ⟨d', start', hfound', hkinds.symm, hstart', h.range_of_read hfound' hread'⟩

end Card

namespace Session

variable [Matcher μ] {s : Session μ} {command : Command μ}

/-- A range operation that only looks leaves the card as it is. -/
theorem step_reported {operation : RangeOperation} {f : Memory → Except Fault (α × Nat)}
    {reply : α → Reply} (hperform : perform command =
      reply <$> onCard (Card.onMemory (Range.reported operation (.query f)))) (s : Session μ) :
    (step command s).result = (f s.card.memory).map (fun r => reply r.1) ∧
      (step command s).state.card = s.card := by
  obtain ⟨hresult, hcard, _⟩ := step_onMemory command hperform s
  rw [Range.exec_reported] at hresult hcard
  refine ⟨hresult.trans ?_, hcard⟩
  rw [Act.exec_query]
  rcases f s.card.memory with _ | _ <;> rfl

theorem step_compare (left : ArrayRef) (leftOffset : Int16) (right : ArrayRef)
    (rightOffset length : Int16) (s : Session μ) :
    (step (.compare left leftOffset right rightOffset length) s).result =
        (Range.compared s.card.memory.store left leftOffset right rightOffset length).map
          (fun r => .sign r.1) ∧
      (step (.compare left leftOffset right rightOffset length) s).state.card = s.card :=
  step_reported (f := fun m => Range.compared m.store left leftOffset right rightOffset length) rfl s

variable {left right third : ArrayRef} {leftOffset rightOffset thirdOffset length : Int16}
  {n k : Int8} {reply : Reply}

theorem compare_of_comparable (hs : s.Sound) (hcount : length.toInt = count)
    (hcomparable : s.card.Comparable left leftOffset right rightOffset count) :
    ∃ n xs ys bs bs', s.card.Compared left leftOffset right rightOffset count n xs ys bs bs' ∧
      (step (.compare left leftOffset right rightOffset length) s).result = .ok (.sign n) := by
  obtain ⟨n, _, xs, ys, bs, bs', hsees, hcompared⟩ :=
    hcomparable.compared hs.memory.store hcount
  refine ⟨n, xs, ys, bs, bs', hsees, ?_⟩
  rw [(step_compare left leftOffset right rightOffset length s).1, hcompared]
  rfl

theorem comparable_of_compare (hs : s.Sound)
    (hok : (step (.compare left leftOffset right rightOffset length) s).result = .ok reply) :
    ∃ count : Nat, length.toInt = count ∧
      s.card.Comparable left leftOffset right rightOffset count := by
  rw [(step_compare left leftOffset right rightOffset length s).1] at hok
  rcases hcompared : Range.compared s.card.memory.store left leftOffset right rightOffset length
    with e | r
  · rw [hcompared] at hok
    cases hok
  · exact Card.comparable_of_compared hs.memory.store hcompared

/-- What a comparison has seen that returned a sign. -/
theorem compare_sees (hs : s.Sound)
    (hok : (step (.compare left leftOffset right rightOffset length) s).result = .ok reply) :
    ∃ (count : Nat) (n : Int8) (xs ys : List Nat) (bs bs' : List UInt8),
      length.toInt = count ∧ reply = .sign n ∧
      s.card.Comparable left leftOffset right rightOffset count ∧
      s.card.Compared left leftOffset right rightOffset count n xs ys bs bs' := by
  obtain ⟨count, hcount, hcomparable⟩ := comparable_of_compare hs hok
  obtain ⟨n, xs, ys, bs, bs', hsees, hresult⟩ := compare_of_comparable hs hcount hcomparable
  rw [hok, Except.ok.injEq] at hresult
  exact ⟨count, n, xs, ys, bs, bs', hcount, hresult, hcomparable, hsees⟩

/-! ## The laws of an order -/

theorem compare_self (hs : s.Sound)
    (hok : (step (.compare left leftOffset right rightOffset length) s).result = .ok reply) :
    (step (.compare left leftOffset left leftOffset length) s).result = .ok (.sign 0) := by
  obtain ⟨count, hcount, kind, hnumeric, hleft, -⟩ := comparable_of_compare hs hok
  obtain ⟨n, xs, ys, _, _, hsees, hresult⟩ :=
    compare_of_comparable hs hcount ⟨kind, hnumeric, hleft, hleft⟩
  have hsame : xs = ys := Except.ok.inj (hsees.leftElements.symm.trans hsees.rightElements)
  rw [hresult, hsees.sign, lexSign_eq_zero_iff.mpr hsame]

theorem compare_swap (hs : s.Sound)
    (hok : (step (.compare left leftOffset right rightOffset length) s).result = .ok (.sign n)) :
    (step (.compare right rightOffset left leftOffset length) s).result = .ok (.sign (-n)) := by
  obtain ⟨count, n', xs, ys, _, _, hcount, hn, ⟨kind, hnumeric, hleft, hright⟩, hsees⟩ :=
    compare_sees hs hok
  obtain ⟨k, ys', xs', _, _, hswapped, hresult⟩ :=
    compare_of_comparable hs hcount ⟨kind, hnumeric, hright, hleft⟩
  have hxs : xs' = xs := Except.ok.inj (hswapped.rightElements.symm.trans hsees.leftElements)
  have hys : ys' = ys := Except.ok.inj (hswapped.leftElements.symm.trans hsees.rightElements)
  rw [hresult, Reply.sign.inj hn, hswapped.sign, hsees.sign, hxs, hys, lexSign_swap]

theorem compare_trans (hs : s.Sound)
    (hok : (step (.compare left leftOffset right rightOffset length) s).result = .ok (.sign n))
    (hok' : (step (.compare right rightOffset third thirdOffset length) s).result = .ok (.sign k))
    (hn : n ≤ 0) (hk : k ≤ 0) :
    ∃ j, (step (.compare left leftOffset third thirdOffset length) s).result = .ok (.sign j) ∧
      j ≤ 0 ∧ (j = 0 ↔ n = 0 ∧ k = 0) := by
  obtain ⟨count, n', xs, ys, _, _, hcount, hsign, ⟨kind, hnumeric, hleft, hright⟩, hsees⟩ :=
    compare_sees hs hok
  obtain ⟨count', k', ys', zs, _, _, hcount', hsign', ⟨kind', _, hright', hthird⟩, hsees'⟩ :=
    compare_sees hs hok'
  obtain rfl : n = n' := Reply.sign.inj hsign
  obtain rfl : k = k' := Reply.sign.inj hsign'
  obtain rfl : count' = count := Int.ofNat.inj (hcount'.symm.trans hcount)
  have hkind : kind' = kind := hright'.kind_unique hright
  obtain ⟨j, xs', zs', _, _, hends, hresult⟩ :=
    compare_of_comparable hs hcount ⟨kind, hnumeric, hleft, hkind ▸ hthird⟩
  have hxs : xs' = xs := Except.ok.inj (hends.leftElements.symm.trans hsees.leftElements)
  have hys : ys' = ys := Except.ok.inj (hsees'.leftElements.symm.trans hsees.rightElements)
  have hzs : zs' = zs := Except.ok.inj (hends.rightElements.symm.trans hsees'.rightElements)
  have hj := hends.sign
  have hk' := hsees'.sign
  rw [hxs, hzs] at hj
  rw [hys] at hk'
  -- What is left is about the order of the three sequences.
  rw [hsees.sign, lexSign_le_zero_iff] at hn
  rw [hk', lexSign_le_zero_iff] at hk
  refine ⟨j, hresult, ?_, ?_⟩
  · rw [hj, lexSign_le_zero_iff]
    exact hn.trans hk
  · rw [hj, hsees.sign, hk', lexSign_eq_zero_iff, lexSign_eq_zero_iff, lexSign_eq_zero_iff]
    constructor
    · rintro rfl
      exact ⟨hn.antisymm hk, hk.antisymm hn⟩
    · rintro ⟨rfl, rfl⟩
      rfl

/-- A comparison is the unsigned lexicographic order of its ranges, and leaves the card as it is. It
is accepted exactly if both are ranges of one kind of numbers. Its result is the sign of the two
sequences of elements, read one by one and taken as unsigned numbers of their width: 0 exactly if
they are equal, and otherwise that of the difference at the first mismatch; and it is the sign of
their bytes. So it is reflexive, antisymmetric and transitive, whether or not the ranges overlap. -/
theorem compare_orders (hreachable : s.Reachable) (left : ArrayRef) (leftOffset : Int16)
    (right : ArrayRef) (rightOffset length : Int16) :
    let o := step (.compare left leftOffset right rightOffset length) s
    o.state.card = s.card ∧
    ((∃ reply, o.result = .ok reply) ↔ ∃ count : Nat, length.toInt = count ∧
      s.card.Comparable left leftOffset right rightOffset count) ∧
    (∀ reply, o.result = .ok reply →
      (∃ (count : Nat) (n : Int8) (xs ys : List Nat) (bs bs' : List UInt8),
        length.toInt = count ∧ reply = .sign n ∧
        s.card.Compared left leftOffset right rightOffset count n xs ys bs bs' ∧
        (n = 0 ↔ xs = ys) ∧
        ∀ i a b, xs.take i = ys.take i → xs[i]? = some a → ys[i]? = some b → a ≠ b →
          n.toInt = Int.sign ((a : Int) - b)) ∧
      (step (.compare left leftOffset left leftOffset length) s).result = .ok (.sign 0)) ∧
    ∀ n, o.result = .ok (.sign n) →
      (step (.compare right rightOffset left leftOffset length) s).result = .ok (.sign (-n)) ∧
      ∀ third thirdOffset k,
        (step (.compare right rightOffset third thirdOffset length) s).result = .ok (.sign k) →
        n ≤ 0 → k ≤ 0 →
        ∃ j, (step (.compare left leftOffset third thirdOffset length) s).result = .ok (.sign j) ∧
          j ≤ 0 ∧ (j = 0 ↔ n = 0 ∧ k = 0) := by
  have hs := hreachable.sound
  refine ⟨(step_compare left leftOffset right rightOffset length s).2, ⟨?_, ?_⟩, fun reply hok => ?_,
    fun n hok => ⟨compare_swap hs hok, fun third thirdOffset k hok' hn hk =>
      compare_trans hs hok hok' hn hk⟩⟩
  · rintro ⟨reply, hok⟩
    exact comparable_of_compare hs hok
  · rintro ⟨count, hcount, hcomparable⟩
    obtain ⟨n, _, _, _, _, _, hresult⟩ := compare_of_comparable hs hcount hcomparable
    exact ⟨_, hresult⟩
  · obtain ⟨count, n, xs, ys, bs, bs', hcount, rfl, _, hsees⟩ := compare_sees hs hok
    refine ⟨⟨count, n, xs, ys, bs, bs', hcount, rfl, hsees, ?_, ?_⟩, compare_self hs hok⟩
    · rw [hsees.sign, lexSign_eq_zero_iff]
    · intro i a b hsame ha hb hne
      rw [hsees.sign]
      exact lexSign_of_mismatch hsame ha hb hne

/-- A byte of 255 is more than one of 1, although it is read as -1. -/
theorem compare_orders_bytesAndShorts :
    (step (.compare ⟨1⟩ 2 ⟨1⟩ 3 1) bytesAndShorts).result = .ok (.sign 1) ∧
      (step (.compare ⟨1⟩ 3 ⟨1⟩ 2 1) bytesAndShorts).result = .ok (.sign (-1)) := by
  have hreachable : bytesAndShorts.Reachable := reachable_fresh.run _
  have hresult : (step (.compare ⟨1⟩ 2 ⟨1⟩ 3 1) bytesAndShorts).result = .ok (.sign 1) := by rfl
  exact ⟨hresult, ((compare_orders hreachable ⟨1⟩ 2 ⟨1⟩ 3 1).2.2.2 1 hresult).1⟩

end Session

end SmartCard
