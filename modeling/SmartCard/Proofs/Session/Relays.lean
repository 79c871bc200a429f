-- SUMMARY: Chains of copies, each of exactly the range that the one before wrote: bytes survive them, and elements of one kind do.
import SmartCard.Proofs.Session.Repacking

/-!
# Relayed ranges

Copies hand a range of elements on from array to array: the first copies a window of an array, and
each later one exactly the window that the one before it wrote (`Session.Relayed`). The kinds of the
arrays on the way change how many elements there are, but never the bytes. So the last window shows
what one copy would have put there, and an array of the first kind gets the first elements back.
-/

namespace SmartCard

variable {μ : Type} {c c' : Config}

/-- A range of elements of an array. -/
structure Window where
  array : ArrayRef
  offset : Int16
  count : Int16
  deriving DecidableEq, Repr

namespace Window

/-- The elements from an offset on that come before the index `next`. -/
def upTo (array : ArrayRef) (offset next : Int16) : Window := ⟨array, offset, next - offset⟩

/-- Copy the elements of a window. -/
def copyTo (w : Window) (p : Range.Protection) (destination : ArrayRef) (offset : Int16) :
    Command μ := .copy p w.array w.offset w.count destination offset

/-- The bytes that the elements of a window take; none if there is no such array. -/
def bytes (w : Window) (card : Card) : List UInt8 :=
  match card.descriptor w.array, card.rawBytes w.array with
  | .ok d, .ok payload =>
    (payload.drop (w.offset.toInt.toNat * d.kind.width)).take (w.count.toInt.toNat * d.kind.width)
  | _, _ => []

/-- The elements of a window; none if there is no such array. -/
def elements (w : Window) (card : Card) : List Int32 :=
  match card.elements w.array with
  | .ok values => (values.drop w.offset.toInt.toNat).take w.count.toInt.toNat
  | .error _ => []

/-- Whether a window lies within its array, and these are the bytes there. -/
structure Shows (w : Window) (card : Card) (d : Descriptor) (bytes : List UInt8) : Prop where
  descriptor : card.memory.store.descriptor? w.array = some d
  offset : 0 ≤ w.offset.toInt
  count : 0 ≤ w.count.toInt
  read : card.memory.store.read w.array (w.offset.toInt.toNat * d.kind.width)
    (w.count.toInt.toNat * d.kind.width) = .ok bytes

namespace Shows

variable {w : Window} {card card' : Card} {d d' : Descriptor} {bytes bytes' : List UInt8}

theorem bytes_eq (h : w.Shows card d bytes) (hcard : card.memory.store.Sound c) :
    w.bytes card = bytes := by
  obtain ⟨cell, hfound, rfl⟩ := Table.descriptor?_eq_some_iff.mp h.descriptor
  obtain ⟨_, rfl⟩ := (hcard.read_iff hfound).mp h.read
  rw [Window.bytes, (Card.descriptor_eq_ok_iff hcard).mpr h.descriptor,
    Card.rawBytes_of_found hcard hfound]

theorem elements_eq (h : w.Shows card d bytes) (hcard : card.memory.store.Sound c) :
    w.elements card = (chunks d.kind.width bytes).map d.kind.decode := by
  obtain ⟨values, hvalues, hslice⟩ := Card.elements_of_read hcard h.descriptor h.read
  rw [elements, hvalues]
  exact hslice

theorem length_eq (h : w.Shows card d bytes) :
    bytes.length = w.count.toInt.toNat * d.kind.width := Store.length_of_read h.read

theorem unique (h : w.Shows card d bytes) (h' : w.Shows card d' bytes') :
    d = d' ∧ bytes = bytes' := by
  have hd := h.descriptor
  rw [h'.descriptor, Option.some.injEq] at hd
  subst hd
  have hread := h.read
  rw [h'.read, Except.ok.injEq] at hread
  exact ⟨rfl, hread.symm⟩

/-- A window shows the same as long as its array stays as it is. -/
theorem of_cell (h : w.Shows card d bytes)
    (hcell : card'.memory.store.table.find? w.array = card.memory.store.table.find? w.array) :
    w.Shows card' d bytes where
  descriptor := by
    rw [← h.descriptor]
    exact congrArg (Option.map Cell.descriptor) hcell
  offset := h.offset
  count := h.count
  read := by
    rw [← h.read, Store.read, Store.read, Store.cell, Store.cell, hcell]

/-- Windows of one kind that show the same bytes have the same elements. -/
theorem elements_eq_of_kind {w' : Window} (h : w.Shows card d bytes) (h' : w'.Shows card' d' bytes)
    (hcard : card.memory.store.Sound c) (hcard' : card'.memory.store.Sound c')
    (hkind : d.kind = d'.kind) : w'.count = w.count ∧ w'.elements card' = w.elements card := by
  have hlength := h.length_eq
  rw [h'.length_eq, hkind] at hlength
  have hcount := Nat.mul_right_cancel d'.kind.width_pos hlength
  have hnonneg := h.count
  have hnonneg' := h'.count
  refine ⟨Int16.toInt_inj.mp (by omega), ?_⟩
  rw [h.elements_eq hcard, h'.elements_eq hcard', hkind]

end Shows

end Window

namespace Session

variable [Matcher μ] {s t : Session μ} {w v : Window} {p : Range.Protection}
  {destination : ArrayRef} {offset next : Int16}

/-- The window `w` of the session `s` has been handed on by copies, each of exactly the window that
the one before it wrote. The last of them has written `v`, and `t` is the session since. In between
there may be commands that leave the array alone which is to be copied next: a transaction may be
opened or closed, other arrays may be made or written. -/
inductive Relayed (s : Session μ) (w : Window) : Session μ → Window → Prop where
  | first {p : Range.Protection} {destination : ArrayRef} {offset next : Int16} :
      (step (w.copyTo p destination offset) s).result = .ok (.short next) →
      Relayed s w (step (w.copyTo p destination offset) s).state (.upTo destination offset next)
  | next {t : Session μ} {v : Window} {p : Range.Protection} {destination : ArrayRef}
      {offset next : Int16} :
      Relayed s w t v → (step (v.copyTo p destination offset) t).result = .ok (.short next) →
      Relayed s w (step (v.copyTo p destination offset) t).state (.upTo destination offset next)
  | other {t : Session μ} {v : Window} {command : Command μ} :
      Relayed s w t v →
      (step command t).state.card.memory.store.table.find? v.array =
        t.card.memory.store.table.find? v.array →
      Relayed s w (step command t).state v

/-- A copy shows in its destination the bytes that its source shows before. -/
theorem copy_shows (hs : s.Sound)
    (hok : (step (v.copyTo p destination offset) s).result = .ok (.short next)) :
    ∃ d d' bytes, v.Shows s.card d bytes ∧
      (Window.upTo destination offset next).Shows
        (step (v.copyTo p destination offset) s).state.card d' bytes := by
  obtain ⟨r, bytes, _, hvalid, hreply, hnext, hmoved⟩ := copy_moves hs hok
  cases hreply
  have hstart := hvalid.start
  have hcount := hvalid.count
  have htarget := hvalid.target
  have hlast := next.toInt_lt
  have hwritten : (next - offset).toInt = r.made := by
    rw [Int16.toInt_sub, hnext, htarget, add_sub_cancel_left]
    exact Int.bmod_eq_of_le (by omega) (by omega)
  have hread := hs.memory.store.read_withBytes_inside (i := 0) (n := bytes.length) hmoved.into
    hmoved.fits (by omega)
  rw [← hmoved.store, List.drop_zero, List.take_length, Nat.add_zero, hmoved.length_eq] at hread
  refine ⟨r.source, r.destination, bytes, ⟨hmoved.origin, by omega, by omega, ?_⟩,
    ⟨hmoved.destination_after, ?_, ?_, ?_⟩⟩
  · rw [hstart, hcount]
    exact hmoved.read
  · show 0 ≤ offset.toInt
    omega
  · show 0 ≤ (next - offset).toInt
    omega
  · simp only [Window.upTo, htarget, hwritten, Int.toNat_natCast]
    exact hread

namespace Relayed

theorem reachable (hs : s.Reachable) (h : Relayed s w t v) : t.Reachable := by
  induction h with
  | first => exact hs.step _
  | next _ _ ih => exact ih.step _
  | other _ _ ih => exact ih.step _

/-- The bytes of the first window are those of the last. -/
theorem shows (hs : s.Reachable) (h : Relayed s w t v) :
    ∃ d d' bytes, w.Shows s.card d bytes ∧ v.Shows t.card d' bytes := by
  induction h with
  | first hok => exact copy_shows hs.sound hok
  | next hchain hok ih =>
    obtain ⟨d, d', bytes, hfirst, hlast⟩ := ih
    obtain ⟨x, y, bytes', hsource, hwritten⟩ :=
      copy_shows (hchain.reachable hs).sound hok
    obtain ⟨-, rfl⟩ := hlast.unique hsource
    exact ⟨d, y, bytes, hfirst, hwritten⟩
  | other hchain hcell ih =>
    obtain ⟨d, d', bytes, hfirst, hlast⟩ := ih
    exact ⟨d, d', bytes, hfirst, hlast.of_cell hcell⟩

end Relayed

/-- Repacking does not depend on the way and undoes itself. When copies have handed a window on,
then whatever the kinds of the arrays on the way, the last window has the bytes that a single copy
of the first window into its array writes, from the state where the chain started or any other one
in which the first array is the same, wherever that copy puts the bytes and under either protection,
if the card accepts it. And if the last array has the kind of the first, the last window has the
elements of the first. -/
theorem relayed_as_copied (hreachable : s.Reachable) (h : Relayed s w t v) :
    (∀ (u : Session μ) (p : Range.Protection) (offset next : Int16), u.Reachable →
      u.card.memory.store.table.find? w.array = s.card.memory.store.table.find? w.array →
      (step (w.copyTo p v.array offset) u).result = .ok (.short next) →
      (Window.upTo v.array offset next).bytes (step (w.copyTo p v.array offset) u).state.card =
        v.bytes t.card) ∧
    (∀ d d', s.card.descriptor w.array = .ok d → t.card.descriptor v.array = .ok d' →
      d.kind = d'.kind →
      v.count = w.count ∧ v.elements t.card = w.elements s.card) := by
  have hs := hreachable.sound
  have ht := (h.reachable hreachable).sound
  obtain ⟨d, d', bytes, hfirst, hlast⟩ := h.shows hreachable
  constructor
  · intro u p offset next hu hsame hok
    obtain ⟨_, _, _, hsource, hdirect⟩ := copy_shows hu.sound hok
    obtain ⟨-, rfl⟩ := (hfirst.of_cell hsame).unique hsource
    rw [hdirect.bytes_eq (hu.step _).sound.memory.store, hlast.bytes_eq ht.memory.store]
  · intro x x' hx hx' hkind
    have hd := (Card.descriptor_eq_ok_iff hs.memory.store).mp hx
    have hd' := (Card.descriptor_eq_ok_iff ht.memory.store).mp hx'
    rw [hfirst.descriptor, Option.some.injEq] at hd
    rw [hlast.descriptor, Option.some.injEq] at hd'
    subst hd hd'
    exact hfirst.elements_eq_of_kind hlast hs.memory.store ht.memory.store hkind

/-- A card with an array of each kind of number, and a second one of bytes. -/
def fourArrays : Session ConstantScore :=
  (run fresh [.makePersistent .byte 4, .makeTransient .short 3 1, .makePersistent .int 2,
    .makePersistent .byte 6, .setElement ⟨1⟩ 0 18, .setElement ⟨1⟩ 1 52, .setElement ⟨1⟩ 2 (-1),
    .setElement ⟨1⟩ 3 1]).2

/-- Copies from bytes to shorts, to an int and back to bytes, the last two in a transaction. -/
def roundTrip : List (Command ConstantScore) :=
  [.copy .nonAtomic ⟨1⟩ 0 4 ⟨2⟩ 1, .begin, .copy .atomic ⟨2⟩ 1 2 ⟨3⟩ 1, .copy .atomic ⟨3⟩ 1 1 ⟨4⟩ 2]

/-- The second array of bytes gets the bytes that one copy puts there, and the elements of the
first. -/
theorem relayed_as_copied_roundTrip :
    (Window.mk ⟨4⟩ 0 4).bytes (step (.copy .atomic ⟨1⟩ 0 4 ⟨4⟩ 0) fourArrays).state.card =
        (Window.mk ⟨4⟩ 2 4).bytes (run fourArrays roundTrip).2.card ∧
      (Window.mk ⟨4⟩ 2 4).elements (run fourArrays roundTrip).2.card =
        (Window.mk ⟨1⟩ 0 4).elements fourArrays.card := by
  have hreachable : fourArrays.Reachable := reachable_fresh.run _
  have hfirst : Relayed fourArrays ⟨⟨1⟩, 0, 4⟩ (run fourArrays (roundTrip.take 1)).2
      (.upTo ⟨2⟩ 1 3) := .first rfl
  have hopened : Relayed fourArrays ⟨⟨1⟩, 0, 4⟩ (run fourArrays (roundTrip.take 2)).2
      (.upTo ⟨2⟩ 1 3) := hfirst.other rfl
  have hjoined : Relayed fourArrays ⟨⟨1⟩, 0, 4⟩ (run fourArrays (roundTrip.take 3)).2
      (.upTo ⟨3⟩ 1 2) := hopened.next rfl
  have hsplit : Relayed fourArrays ⟨⟨1⟩, 0, 4⟩ (run fourArrays roundTrip).2
      (.upTo ⟨4⟩ 2 6) := hjoined.next rfl
  obtain ⟨hdirect, hkinds⟩ := relayed_as_copied hreachable hsplit
  exact ⟨hdirect fourArrays .atomic 0 4 hreachable rfl rfl,
    (hkinds ⟨.byte, 4, .persistent, false⟩ ⟨.byte, 6, .persistent, false⟩ rfl rfl rfl).2⟩

end Session

end SmartCard
