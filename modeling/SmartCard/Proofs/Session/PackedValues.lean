-- SUMMARY: Shorts and ints in byte arrays as one big-endian view: getters, joins, copies, setters and single elements agree.
import SmartCard.Proofs.Session.Repacking
import SmartCard.Proofs.Session.StoredValues

/-!
# Packed values

A byte array can be read as bytes, as shorts and as ints. All these readings are of one number
(`Card.Packs`): an int is joined from two shorts or from four bytes, and it is the element that a
copy makes of the bytes. What a setter packs is read back, and leaves the store that setting its
halves or its bytes leaves.
-/

namespace SmartCard

variable {μ : Type} {c : Config} {card : Card} {array : ArrayRef} {d : Descriptor}
  {offset : Int16} {start width : Nat} {bytes : List UInt8}

/-- Set a short to the high half of a value, and the next one to the low half. -/
def Command.setHalves (array : ArrayRef) (offset : Int16) (value : Int32) : List (Command μ) :=
  [.setShort array offset (value >>> 16).toInt16, .setShort array (offset + 2) value.toInt16]

/-- Set four bytes to those of a value, the most significant one first. -/
def Command.setBytes (array : ArrayRef) (offset : Int16) (value : Int32) : List (Command μ) :=
  setFrom array offset.toInt.toNat [value >>> 24, value >>> 16, value >>> 8, value]

/-! ## Words and their parts -/

namespace BigEndian

/-- A joined short writes the number of its bytes. -/
theorem toNat_joinBytes (b₁ b₂ : Int8) :
    (joinBytes b₁ b₂).toUInt16.toNat = b₁.toUInt8.toNat * 256 + b₂.toUInt8.toNat := by
  have hhigh := b₁.toUInt8.toNat_lt
  have hlow := b₂.toUInt8.toNat_lt
  -- The low byte of the shifted short is free, so that nothing is carried.
  rw [joinBytes, UInt16.toUInt16_toInt16, UInt16.toNat_or, UInt16.toNat_shiftLeft,
    UInt8.toNat_toUInt16, UInt8.toNat_toUInt16,
    Nat.mod_eq_of_lt (by simp [Nat.shiftLeft_eq]; omega),
    ← Nat.shiftLeft_add_eq_or_of_lt (by simpa using hlow)]
  simp [Nat.shiftLeft_eq]

/-- A joined int writes the number of its shorts. -/
theorem toNat_joinShorts (s₁ s₂ : Int16) :
    (joinShorts s₁ s₂).toUInt32.toNat = s₁.toUInt16.toNat * 65536 + s₂.toUInt16.toNat := by
  have hhigh := s₁.toUInt16.toNat_lt
  have hlow := s₂.toUInt16.toNat_lt
  rw [joinShorts, UInt32.toUInt32_toInt32, UInt32.toNat_or, UInt32.toNat_shiftLeft,
    UInt16.toNat_toUInt32, UInt16.toNat_toUInt32,
    Nat.mod_eq_of_lt (by simp [Nat.shiftLeft_eq]; omega),
    ← Nat.shiftLeft_add_eq_or_of_lt (by simpa using hlow)]
  simp [Nat.shiftLeft_eq]

/-- Two bytes, read as a word, are the short that is joined from them. -/
theorem joinBytes_assemble (x y : UInt8) :
    joinBytes x.toInt8 y.toInt8 = (assemble [x, y]).toUInt16.toInt16 := by
  have hword : (assemble [x, y]).toNat = number [x, y] := toNat_assemble (by simp)
  have hx := x.toNat_lt
  have hy := y.toNat_lt
  show (joinBytes x.toInt8 y.toInt8).toUInt16.toInt16 = _
  refine congrArg UInt16.toInt16 (UInt16.toNat_inj.mp ?_)
  rw [toNat_joinBytes, UInt32.toNat_toUInt16, hword, number_cons, number_singleton]
  simp
  omega

/-- Four bytes, read as a word, are the int that is joined from them. -/
theorem joinFourBytes_assemble (w x y z : UInt8) :
    joinFourBytes w.toInt8 x.toInt8 y.toInt8 z.toInt8 = (assemble [w, x, y, z]).toInt32 := by
  have hword : (assemble [w, x, y, z]).toNat = number [w, x, y, z] := toNat_assemble (by simp)
  show (joinFourBytes w.toInt8 x.toInt8 y.toInt8 z.toInt8).toUInt32.toInt32 = _
  refine congrArg UInt32.toInt32 (UInt32.toNat_inj.mp ?_)
  rw [joinFourBytes, toNat_joinShorts, toNat_joinBytes, toNat_joinBytes, hword]
  simp [number_cons]
  omega

/-- A short is read back from its bytes. -/
theorem assemble_split_short (value : Int16) :
    (assemble (split value.toUInt16.toUInt32 2)).toUInt16.toInt16 = value := by
  have hlength : (split value.toUInt16.toUInt32 2).length = 2 := split_length (by decide)
  have hlt := value.toUInt16.toNat_lt
  show _ = value.toUInt16.toInt16
  refine congrArg UInt16.toInt16 (UInt16.toNat_inj.mp ?_)
  rw [UInt32.toNat_toUInt16, toNat_assemble (by omega), number_split (by decide),
    UInt16.toNat_toUInt32]
  omega

/-- The bytes of an int are those of its halves. -/
theorem split_halves (value : Int32) :
    split (value >>> 16).toInt16.toUInt16.toUInt32 2 ++ split value.toInt16.toUInt16.toUInt32 2 =
      split value.toUInt32 4 := by
  have hlength : ∀ {word : UInt32} {width : Nat}, width ≤ 4 → (split word width).length = width :=
    split_length
  have hhigh : (value >>> 16).toInt16.toUInt16 = (value.toUInt32 >>> 16).toUInt16 := by
    refine UInt16.eq_of_toBitVec_eq (BitVec.eq_of_getLsbD_eq fun i hi => ?_)
    simp [BitVec.getLsbD_signExtend, BitVec.getLsbD_sshiftRight]
    grind
  have hlow : value.toInt16.toUInt16 = value.toUInt32.toUInt16 := by
    refine UInt16.eq_of_toBitVec_eq (BitVec.eq_of_getLsbD_eq fun i hi => ?_)
    simp [BitVec.getLsbD_signExtend]
    grind
  have hlt := value.toUInt32.toNat_lt
  refine number_injective (by simp [hlength]) ?_
  rw [number_append, hlength (by decide), number_split (by decide), number_split (by decide),
    number_split (by decide), hhigh, hlow]
  simp [Nat.shiftRight_eq_div_pow]
  omega

/-- The bytes of an int are the low bytes of its shifts. -/
theorem split_shifts (value : Int32) :
    [value >>> 24, value >>> 16, value >>> 8, value].flatMap Kind.byte.encode =
      split value.toUInt32 4 := by
  have hshift : ∀ n : Int32, n = 24 ∨ n = 16 ∨ n = 8 →
      (value >>> n).toUInt32.toUInt8 = (value.toUInt32 >>> n.toUInt32).toUInt8 := by
    rintro n (rfl | rfl | rfl) <;>
    · refine UInt8.eq_of_toBitVec_eq (BitVec.eq_of_getLsbD_eq fun i hi => ?_)
      simp [BitVec.getLsbD_sshiftRight]
      grind
  have h24 : _ = (value.toUInt32 >>> 24).toUInt8 := hshift 24 (by decide)
  have h16 : _ = (value.toUInt32 >>> 16).toUInt8 := hshift 16 (by decide)
  have h8 : _ = (value.toUInt32 >>> 8).toUInt8 := hshift 8 (by decide)
  simp [Kind.encode, Kind.width, split, h24, h16, h8]

end BigEndian

open BigEndian

/-! ## Windows -/

/-- The index so many elements further on. -/
theorem index?_add (h : index? offset = some start) {k : Nat} (hk : start + k ≤ maxArrayLength) :
    index? (offset + Int16.ofNat k) = some (start + k) := by
  have hoffset := Range.index?_eq_some_iff.mp h
  have hadd := Range.toInt_ofNat_of_le (Nat.le_trans (Nat.le_add_left k start) hk)
  unfold maxArrayLength at hk
  refine Range.index?_eq_some_iff.mpr ?_
  rw [Int16.toInt_add, hoffset, hadd, Int.bmod_eq_of_le (by omega) (by omega)]
  exact (Int.natCast_add _ _).symm

namespace Card

/-- Whether two cards have the same bytes but for so many bytes of an array. -/
def SameBeside (before after : Card) (array : ArrayRef) (offset : Int16) (width : Nat) : Prop :=
  ∀ (other : ArrayRef) (i : Nat),
    ¬(other = array ∧ offset.toInt ≤ i ∧ i < offset.toInt + width) →
      after.memory.store.byte? other i = before.memory.store.byte? other i

/-- Four bytes from an offset on, as an int, as shorts and as bytes, all of which agree. -/
structure Packs (card : Card) (array : ArrayRef) (offset : Int16) (value : Int32)
    (high low : Int16) (b₁ b₂ b₃ b₄ : Int8) : Prop where
  readInt : card.getInt array offset = .ok value
  readHigh : card.getShort array offset = .ok high
  readLow : card.getShort array (offset + 2) = .ok low
  first : card.getElement array offset = .ok b₁.toInt32
  second : card.getElement array (offset + 1) = .ok b₂.toInt32
  third : card.getElement array (offset + 2) = .ok b₃.toInt32
  fourth : card.getElement array (offset + 3) = .ok b₄.toInt32
  highOfBytes : high = joinBytes b₁ b₂
  lowOfBytes : low = joinBytes b₃ b₄
  ofShorts : value = joinShorts high low
  ofBytes : value = joinFourBytes b₁ b₂ b₃ b₄

/-! ## Getters -/

variable (h : card.memory.store.Sound c) (hd : card.memory.store.descriptor? array = some d)
  (hkind : d.kind = .byte)

include h hd hkind

theorem readWord_of_read (hoffset : index? offset = some start) (hrange : start + width ≤ d.length)
    (hread : card.memory.store.read array start width = .ok bytes) :
    Packing.readWord card.memory.store array offset width = .ok (assemble bytes) := by
  have hwindow := Packing.window_of_range h hd hkind hoffset hrange
  simp [Packing.readWord, hwindow, hread, bind, Except.bind, pure, Except.pure]

theorem getShort_of_read (hoffset : index? offset = some start) (hrange : start + 2 ≤ d.length)
    (hread : card.memory.store.read array start 2 = .ok bytes) :
    card.getShort array offset = .ok (assemble bytes).toUInt16.toInt16 := by
  rw [getShort, Packing.getShort, readWord_of_read h hd hkind hoffset hrange hread]
  rfl

theorem getInt_of_read (hoffset : index? offset = some start) (hrange : start + 4 ≤ d.length)
    (hread : card.memory.store.read array start 4 = .ok bytes) :
    card.getInt array offset = .ok (assemble bytes).toInt32 := by
  rw [getInt, Packing.getInt, readWord_of_read h hd hkind hoffset hrange hread]
  rfl

theorem getByte_of_read {x : UInt8} (hoffset : index? offset = some start)
    (hrange : start < d.length) (hread : card.memory.store.read array start 1 = .ok [x]) :
    card.getElement array offset = .ok x.toInt8.toInt32 := by
  have hwidth : d.kind.width = 1 := by rw [hkind]; rfl
  have hvalue : card.getElement array offset = .ok (d.kind.decode [x]) := by
    refine getElement_of_read ((descriptor_eq_ok_iff h).mpr hd) hoffset hrange ?_
    rwa [hwidth, Nat.mul_one]
  rw [hvalue, hkind]
  simp [Kind.decode, assemble, push]

/-- Four bytes are read as one number, however they are read. -/
theorem packs_of_read {w x y z : UInt8} (hoffset : index? offset = some start)
    (hrange : start + 4 ≤ d.length)
    (hread : card.memory.store.read array start 4 = .ok [w, x, y, z]) :
    card.Packs array offset (assemble [w, x, y, z]).toInt32 (joinBytes w.toInt8 x.toInt8)
      (joinBytes y.toInt8 z.toInt8) w.toInt8 x.toInt8 y.toInt8 z.toInt8 := by
  have hlength := h.length_le hd
  -- A part of the window, and its offset as a short.
  have hpart : ∀ k n, k + n ≤ 4 → index? (offset + Int16.ofNat k) = some (start + k) ∧
      start + k + n ≤ d.length ∧
      card.memory.store.read array (start + k) n = .ok (([w, x, y, z].drop k).take n) :=
    fun k n hk => ⟨index?_add hoffset (by omega), by omega, Store.read_part hread hk⟩
  obtain ⟨h₁, hrange₁, hread₁⟩ := hpart 1 1 (by decide)
  obtain ⟨h₂, hrange₂, hread₂⟩ := hpart 2 1 (by decide)
  obtain ⟨h₃, hrange₃, hread₃⟩ := hpart 3 1 (by decide)
  obtain ⟨_, hhigh, hreadHigh⟩ := hpart 0 2 (by decide)
  obtain ⟨hlow, hrangeLow, hreadLow⟩ := hpart 2 2 (by decide)
  obtain ⟨_, hrange₀, hread₀⟩ := hpart 0 1 (by decide)
  exact
    { readInt := getInt_of_read h hd hkind hoffset hrange hread
      readHigh := by
        rw [joinBytes_assemble]
        exact getShort_of_read h hd hkind hoffset hhigh hreadHigh
      readLow := by
        rw [joinBytes_assemble]
        exact getShort_of_read h hd hkind hlow hrangeLow hreadLow
      first := getByte_of_read h hd hkind hoffset hrange₀ hread₀
      second := getByte_of_read h hd hkind h₁ hrange₁ hread₁
      third := getByte_of_read h hd hkind h₂ hrange₂ hread₂
      fourth := getByte_of_read h hd hkind h₃ hrange₃ hread₃
      highOfBytes := rfl
      lowOfBytes := rfl
      ofShorts := (joinFourBytes_assemble w x y z).symm
      ofBytes := (joinFourBytes_assemble w x y z).symm }

end Card

/-! ## Copies -/

/-- The arguments of a copy mean at most one repacking. -/
theorem Repacking.Valid.unique {r r' : Repacking} {source destination : ArrayRef}
    {sourceOffset sourceLength destinationOffset : Int16}
    (h : r.Valid card source sourceOffset sourceLength destination destinationOffset)
    (h' : r'.Valid card source sourceOffset sourceLength destination destinationOffset) :
    r = r' := by
  have hsource := Except.ok.inj (h.source.symm.trans h'.source)
  have hdestination := Except.ok.inj (h.destination.symm.trans h'.destination)
  have hstart := Int.ofNat.inj (h.start.symm.trans h'.start)
  have hcount := Int.ofNat.inj (h.count.symm.trans h'.count)
  have htarget := Int.ofNat.inj (h.target.symm.trans h'.target)
  have hmade : r.made = r'.made := by
    have hbytes := h.made_eq
    rw [hcount, hsource, hdestination, ← h'.made_eq] at hbytes
    exact Nat.mul_right_cancel r'.destination.kind.width_pos hbytes
  cases r
  cases r'
  simp_all

namespace Session

variable [Matcher μ] {s : Session μ} {command : Command μ}

/-- Four bytes are copied into an int as the int that is read from them, unless the copy is
hindered. -/
theorem copy_packs (hs : s.Sound) (hd : s.card.memory.store.descriptor? array = some d)
    (hkind : d.kind = .byte) (hoffset : index? offset = some start) (hrange : start + 4 ≤ d.length)
    (hread : s.card.memory.store.read array start 4 = .ok bytes) (p : Range.Protection)
    {destination : ArrayRef} {destinationOffset : Int16} {target : Nat} {d' : Descriptor}
    (hd' : s.card.descriptor destination = .ok d') (hkind' : d'.kind = .int)
    (htarget : destinationOffset.toInt = target) (hinside : target < d'.length) :
    let o := step (.copy p array offset 4 destination destinationOffset) s
    (∃ next : Int16, o.result = .ok (.short next) ∧ next.toInt = destinationOffset.toInt + 1 ∧
      o.state.card.getElement destination destinationOffset = .ok (assemble bytes).toInt32) ∨
    ∃ e, o.result = .error e ∧ e.Hinders destination := by
  have hstore := hs.memory.store
  have hwidth : d.kind.width = 1 := by rw [hkind]; rfl
  have hwidth' : d'.kind.width = 4 := by rw [hkind']; rfl
  have hvalid : (⟨d, d', start, 4, target, 1⟩ : Repacking).Valid s.card array offset 4 destination
      destinationOffset :=
    { source := (Card.descriptor_eq_ok_iff hstore).mpr hd
      destination := hd'
      numeric := by rw [hkind, hkind']; decide
      start := Range.index?_eq_some_iff.mp hoffset
      count := rfl
      target := htarget
      joins := fun n hn => by
        dsimp only at hn ⊢
        rw [hwidth, hwidth'] at hn
        omega
      splits := fun n hn => by
        dsimp only at hn ⊢
        rw [hwidth, hwidth'] at hn
        omega
      inSource := hrange
      inDestination := hinside }
  rcases hresult : (step (.copy p array offset 4 destination destinationOffset) s).result with
    e | reply
  · obtain ⟨_, -, ho⟩ := hvalid.output hstore
    exact .inr ⟨e, hresult,
      transfer_hindered (t := .copy array offset 4 destination destinationOffset) hs ho hresult⟩
  · obtain ⟨r, moved, next, hvalid', rfl, hnext, hmoved⟩ := copy_moves hs hresult
    obtain rfl := hvalid'.unique hvalid
    have hsame : moved = bytes := by
      have hread' := hmoved.read
      dsimp only at hread'
      rw [hwidth, Nat.mul_one, hread] at hread'
      exact (Except.ok.inj hread').symm
    have hlength : bytes.length = d'.kind.width := (Store.length_of_read hread).trans hwidth'.symm
    subst hsame
    refine .inl ⟨next, hresult, ?_, ?_⟩
    · rw [hnext, htarget]
      rfl
    · have helement := Card.getElement_put hstore hmoved.into hmoved.store
        (Range.index?_eq_some_iff.mpr htarget) hinside hlength
      rwa [hkind'] at helement

/-! ## Setters -/

/-- What a setter leaves: the word is read back, the bytes beside it are as before, and the offset
after it is returned. -/
theorem writeWord_leaves (hs : s.Sound) (hholds : s.card.HasRange array .byte offset width)
    (hpos : 0 < width) (hwidth : width ≤ 4) {word : UInt32}
    (hperform : perform command =
      .short <$> onCard (Card.onMemory (Packing.writeWord array offset word width)))
    (hplain : ∀ e, (step command s).result = .error e → e.IsRefusal) :
    (step command s).result = .ok (.short (offset + Int16.ofNat width)) ∧
      (offset + Int16.ofNat width).toInt = offset.toInt + width ∧
      Packing.readWord (step command s).state.card.memory.store array offset width =
        .ok (assemble (split word width)) ∧
      s.card.SameBeside (step command s).state.card array offset width := by
  have hbefore := hs.memory.store
  have hafter := (hs.step command).memory.store
  obtain ⟨d, start, hd, hkind, hoffset, hrange⟩ := (Card.hasRange_iff hbefore).mp hholds
  have hputs := puts_writeWord hs hd hkind hoffset hrange hpos hwidth hperform
  have hresult := hputs.result_of_plain hplain
  obtain ⟨-, hstore⟩ := hputs.of_ok hresult
  have hlength : (split word width).length = width := split_length hwidth
  have hfits : start + (split word width).length ≤ d.byteLength := by
    rwa [hlength, Descriptor.byteLength_of_byte hkind]
  have hvalue := Range.index?_eq_some_iff.mp hoffset
  refine ⟨hresult, ?_, ?_, fun other i hout => ?_⟩
  · have hnext := index?_add hoffset (Nat.le_trans hrange (hbefore.length_le hd))
    rw [Range.index?_eq_some_iff.mp hnext, hvalue]
    exact Int.natCast_add _ _
  · have hd' : (step command s).state.card.memory.store.descriptor? array = some d := by
      rw [hstore, Store.descriptor?_withBytes]
      exact hd
    have hread := hbefore.read_withBytes_inside hd hfits (i := 0) (n := width) (by omega)
    rw [Nat.add_zero, List.drop_zero, ← hstore] at hread
    rw [Card.readWord_of_read hafter hd' hkind hoffset hrange hread,
      List.take_of_length_le (Nat.le_of_eq hlength)]
  · rw [hstore]
    refine hbefore.byte?_withBytes_outside hd hfits ?_
    rw [hlength]
    rw [hvalue] at hout
    exact_mod_cast hout

/-- A short that is set is read back. -/
theorem setShort_leaves (hs : s.Sound) (hholds : s.card.HasRange array .byte offset 2) (value : Int16)
    (hplain : ∀ e, (step (.setShort array offset value) s).result = .error e → e.IsRefusal) :
    let o := step (.setShort array offset value) s
    o.result = .ok (.short (offset + 2)) ∧ (offset + 2).toInt = offset.toInt + 2 ∧
      o.state.card.getShort array offset = .ok value ∧
      s.card.SameBeside o.state.card array offset 2 := by
  have hperform : perform (μ := μ) (.setShort array offset value) = .short <$> onCard
      (Card.onMemory (Packing.writeWord array offset value.toUInt16.toUInt32 2)) := rfl
  obtain ⟨hresult, hnext, hword, hbeside⟩ :=
    writeWord_leaves hs hholds (by decide) (by decide) hperform hplain
  refine ⟨hresult, hnext, ?_, hbeside⟩
  rw [Card.getShort, Packing.getShort, hword]
  exact congrArg Except.ok (assemble_split_short value)

/-- So is an int. -/
theorem setInt_leaves (hs : s.Sound) (hholds : s.card.HasRange array .byte offset 4) (value : Int32)
    (hplain : ∀ e, (step (.setInt array offset value) s).result = .error e → e.IsRefusal) :
    let o := step (.setInt array offset value) s
    o.result = .ok (.short (offset + 4)) ∧ (offset + 4).toInt = offset.toInt + 4 ∧
      o.state.card.getInt array offset = .ok value ∧
      s.card.SameBeside o.state.card array offset 4 := by
  have hperform : perform (μ := μ) (.setInt array offset value) = .short <$> onCard
      (Card.onMemory (Packing.writeWord array offset value.toUInt32 4)) := rfl
  obtain ⟨hresult, hnext, hword, hbeside⟩ :=
    writeWord_leaves hs hholds (by decide) (by decide) hperform hplain
  refine ⟨hresult, hnext, ?_, hbeside⟩
  rw [Card.getInt, Packing.getInt, hword]
  exact congrArg Except.ok (Kind.decode_encode .int value)

/-! ## Parts of an int -/

/-- The halves of an int lie side by side. -/
theorem putsAll_setHalves (hkind : d.kind = .byte) (hlength : d.length ≤ maxArrayLength)
    (hoffset : index? offset = some start) (hrange : start + 4 ≤ d.length) (value : Int32) :
    PutsAll (μ := μ) array d start (Command.setHalves array offset value)
      [.short (offset + 2), .short (offset + 2 + 2)] (split value.toUInt32 4) := by
  have hlow : index? (offset + 2) = some (start + 2) := index?_add (k := 2) hoffset (by omega)
  have hputs : ∀ (half : Int16) {offset : Int16} {start : Nat}, index? offset = some start →
      start + 2 ≤ d.length → ∀ s : Session μ, s.Sound →
      s.card.memory.store.descriptor? array = some d →
      s.Puts (.setShort array offset half) (.short (offset + 2)) array start
        (split half.toUInt16.toUInt32 2) :=
    fun half _ _ hoffset hrange s hs hd =>
      puts_writeWord hs hd hkind hoffset hrange (by decide) (by decide) rfl
  have hhalf : (split (value >>> 16).toInt16.toUInt16.toUInt32 2).length = 2 :=
    split_length (by decide)
  rw [← split_halves value, ← List.append_nil (split value.toInt16.toUInt16.toUInt32 2)]
  refine .cons (hputs _ hoffset (by omega)) (.cons ?_ (.nil _))
  rw [hhalf]
  exact hputs _ hlow (by omega)

/-- So do its bytes. -/
theorem putsAll_setBytes (hkind : d.kind = .byte) (hlength : d.length ≤ maxArrayLength)
    (hoffset : index? offset = some start) (hrange : start + 4 ≤ d.length) (value : Int32) :
    PutsAll (μ := μ) array d start (Command.setBytes array offset value)
      (List.replicate 4 .done) (split value.toUInt32 4) := by
  have hstart := (Range.index?_eq_some hoffset).1.symm
  have hputs : PutsAll (μ := μ) array d (start * d.kind.width) (Command.setBytes array offset value)
      (List.replicate 4 .done)
      ([value >>> 24, value >>> 16, value >>> 8, value].flatMap d.kind.encode) := by
    rw [Command.setBytes, hstart]
    exact putsAll_setFrom hlength hrange
  rwa [hkind, split_shifts, Kind.width, Nat.mul_one] at hputs

/-- Commands that write the bytes of an int side by side leave the store that setting it leaves,
unless power or room are wanting on the way. -/
theorem parts_leave (hs : s.Sound) (hd : s.card.memory.store.descriptor? array = some d)
    (hkind : d.kind = .byte) (hoffset : index? offset = some start) (hrange : start + 4 ≤ d.length)
    {value : Int32} {parts : List (Command μ)} {replies : List Reply}
    (hparts : PutsAll array d start parts replies (split value.toUInt32 4))
    (hplain : ∀ e, (step (.setInt array offset value) s).result = .error e → e.IsRefusal)
    (hplainParts : ∀ e, .error e ∈ (run s parts).1 → e.IsRefusal) :
    (∀ result ∈ (run s parts).1, ∃ reply, result = .ok reply) ∧
      (run s parts).2.card.memory.store =
        (step (.setInt array offset value) s).state.card.memory.store := by
  have hputs : s.Puts (.setInt array offset value) (.short (offset + 4)) array start
      (split value.toUInt32 4) :=
    puts_writeWord hs hd hkind hoffset hrange (by decide) (by decide) rfl
  obtain ⟨-, hstore⟩ := hputs.of_ok (hputs.result_of_plain hplain)
  have hfits : start + (split value.toUInt32 4).length ≤ d.byteLength := by
    rwa [split_length (by decide), Descriptor.byteLength_of_byte hkind]
  obtain ⟨hresults, hleft⟩ := hparts.run hs hd hfits hplainParts
  refine ⟨fun result hmem => ?_, hleft.trans hstore.symm⟩
  rw [hresults] at hmem
  obtain ⟨reply, _, rfl⟩ := List.mem_map.mp hmem
  exact ⟨reply, rfl⟩

/-! ## The law -/

/-- The packed values of a byte array are one big-endian view. Where four bytes lie within it, the
int is joined from the two shorts and from the four elements that are read there, and a copy of the
bytes into an array of ints, if it is not hindered, stores that int. Unless power is lost or the
commit buffer is full, a short or an int that is set is read back, every byte beside it is as
before, and the offset after it is returned; setting an int leaves the store that setting its halves
leaves, and that setting its four bytes leaves. -/
theorem packed_values_agree (hreachable : s.Reachable) (array : ArrayRef) (offset : Int16) :
    (s.card.HasRange array .byte offset 4 → ∃ value high low b₁ b₂ b₃ b₄,
      s.card.Packs array offset value high low b₁ b₂ b₃ b₄ ∧
      ∀ (p : Range.Protection) (destination : ArrayRef) (destinationOffset : Int16) (d : Descriptor),
        s.card.descriptor destination = .ok d → d.kind = .int →
        0 ≤ destinationOffset.toInt → destinationOffset.toInt < d.length →
        let o := step (.copy p array offset 4 destination destinationOffset) s
        (∃ next : Int16, o.result = .ok (.short next) ∧
          next.toInt = destinationOffset.toInt + 1 ∧
          o.state.card.getElement destination destinationOffset = .ok value) ∨
        ∃ e, o.result = .error e ∧ e.Hinders destination) ∧
    (s.card.HasRange array .byte offset 2 → ∀ value : Int16,
      let o := step (.setShort array offset value) s
      (∀ e, o.result = .error e → e.IsRefusal) →
        o.result = .ok (.short (offset + 2)) ∧ (offset + 2).toInt = offset.toInt + 2 ∧
        o.state.card.getShort array offset = .ok value ∧
        s.card.SameBeside o.state.card array offset 2) ∧
    (s.card.HasRange array .byte offset 4 → ∀ value : Int32,
      let o := step (.setInt array offset value) s
      (∀ e, o.result = .error e → e.IsRefusal) →
        (o.result = .ok (.short (offset + 4)) ∧ (offset + 4).toInt = offset.toInt + 4 ∧
        o.state.card.getInt array offset = .ok value ∧
        s.card.SameBeside o.state.card array offset 4) ∧
        ∀ parts ∈ [Command.setHalves array offset value, Command.setBytes array offset value],
          (∀ e, .error e ∈ (run s parts).1 → e.IsRefusal) →
            (∀ result ∈ (run s parts).1, ∃ reply, result = .ok reply) ∧
            (run s parts).2.card.memory.store = o.state.card.memory.store) := by
  have hs := hreachable.sound
  have hstore := hs.memory.store
  refine ⟨fun hholds => ?_, fun hholds value hplain => setShort_leaves hs hholds value hplain,
    fun hholds value hplain => ⟨setInt_leaves hs hholds value hplain,
      fun parts hparts hplainParts => ?_⟩⟩
  · obtain ⟨d, start, hd, hkind, hoffset, hrange⟩ := (Card.hasRange_iff hstore).mp hholds
    have hbytes : start + 4 ≤ d.byteLength := by rwa [Descriptor.byteLength_of_byte hkind]
    obtain ⟨bytes, hread⟩ := hstore.read_isOk hd hbytes
    obtain ⟨w, x, y, z, rfl⟩ : ∃ w x y z, bytes = [w, x, y, z] :=
      List.length_eq_four.mp (Store.length_of_read hread)
    refine ⟨_, _, _, _, _, _, _, Card.packs_of_read hstore hd hkind hoffset hrange hread,
      fun p destination destinationOffset d' hd' hkind' hlow hhigh => ?_⟩
    exact copy_packs hs hd hkind hoffset hrange hread p hd' hkind'
      (Int.toNat_of_nonneg hlow).symm (by omega)
  · obtain ⟨d, start, hd, hkind, hoffset, hrange⟩ := (Card.hasRange_iff hstore).mp hholds
    have hlength := hstore.length_le hd
    obtain ⟨replies, hputs⟩ :
        ∃ replies, PutsAll array d start parts replies (split value.toUInt32 4) := by
      rcases List.mem_pair.mp hparts with rfl | rfl
      · exact ⟨_, putsAll_setHalves hkind hlength hoffset hrange value⟩
      · exact ⟨_, putsAll_setBytes hkind hlength hoffset hrange value⟩
    exact parts_leave hs hd hkind hoffset hrange hputs hplain hplainParts

/-- An int that is set over four bytes is read back; what was there before is read as one number. -/
theorem packed_values_agree_bytesAndShorts :
    (step (.setInt ⟨1⟩ 0 (-2)) bytesAndShorts).state.card.getInt ⟨1⟩ 0 = .ok (-2) ∧
      ∃ value high low b₁ b₂ b₃ b₄,
        bytesAndShorts.card.Packs ⟨1⟩ 0 value high low b₁ b₂ b₃ b₄ := by
  have hreachable : bytesAndShorts.Reachable := reachable_fresh.run _
  have hholds : bytesAndShorts.card.HasRange ⟨1⟩ .byte 0 4 :=
    ⟨⟨.byte, 4, .persistent, false⟩, rfl, rfl, by decide, by decide⟩
  have hresult : (step (.setInt ⟨1⟩ 0 (-2)) bytesAndShorts).result = .ok (.short 4) := by rfl
  obtain ⟨hreads, -, hsets⟩ := packed_values_agree hreachable ⟨1⟩ 0
  obtain ⟨value, high, low, b₁, b₂, b₃, b₄, hpacks, _⟩ := hreads hholds
  obtain ⟨⟨-, -, hback, -⟩, -⟩ := hsets hholds (-2) fun e he => by
    rw [hresult] at he
    cases he
  exact ⟨hback, value, high, low, b₁, b₂, b₃, b₄, hpacks⟩

end Session

end SmartCard
