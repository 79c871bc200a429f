-- SUMMARY: Commands that write one run of bytes: when they are accepted, how they end, and what several of them leave side by side.
import SmartCard.Proofs.Readings

/-!
# Single writes

A command that sets an element, a packed value or the first elements of an array writes one run of
bytes. If its arguments are in order it ends in one of two ways (`Session.Puts`): the bytes are in
place, or power or room were wanting. Commands whose runs lie side by side (`Session.PutsAll`) leave
what one write of all the bytes leaves.
-/

namespace SmartCard

variable {μ α : Type} {c : Config}

/-- Set elements from an index on to values, one after the other. -/
def Command.setFrom (array : ArrayRef) (start : Nat) : List Int32 → List (Command μ)
  | [] => []
  | value :: more => .setElement array (Int16.ofNat start) value :: setFrom array (start + 1) more

/-- A window into an array of bytes. -/
theorem Packing.window_of_range {s : Store} {array : ArrayRef} {d : Descriptor} {offset : Int16}
    {start width : Nat} (h : s.Sound c) (hd : s.descriptor? array = some d) (hkind : d.kind = .byte)
    (hoffset : index? offset = some start) (hrange : start + width ≤ d.length) :
    window s array offset width = .ok start :=
  window_eq_ok_iff.mpr ⟨d, h.descriptor_iff.mpr hd, hkind, hoffset, hrange⟩

namespace Session

variable [Matcher μ] {s : Session μ} {array : ArrayRef} {d : Descriptor} {command : Command μ}
  {reply : Reply} {offset : Nat} {bytes : List UInt8}

/-! ## One write -/

/-- How a command ends that writes one run of bytes, and whose arguments are in order. -/
inductive Puts (s : Session μ) (command : Command μ) (reply : Reply) (array : ArrayRef)
    (offset : Nat) (bytes : List UInt8) : Prop where
  | done : (step command s).result = .ok reply →
      (step command s).state.card.memory.store = s.card.memory.store.withBytes array offset bytes →
      Puts s command reply array offset bytes
  | hindered {e : Fault} : (step command s).result = .error e → ¬e.IsRefusal →
      Puts s command reply array offset bytes

theorem Puts.of_ok {reply' : Reply} (h : s.Puts command reply array offset bytes)
    (hok : (step command s).result = .ok reply') :
    reply' = reply ∧ (step command s).state.card.memory.store =
      s.card.memory.store.withBytes array offset bytes := by
  cases h with
  | done hresult hstore =>
    rw [hok, Except.ok.injEq] at hresult
    exact ⟨hresult, hstore⟩
  | hindered hresult =>
    rw [hok] at hresult
    cases hresult

theorem Puts.result_of_plain (h : s.Puts command reply array offset bytes)
    (hplain : ∀ e, (step command s).result = .error e → e.IsRefusal) :
    (step command s).result = .ok reply := by
  cases h with
  | done hresult => exact hresult
  | hindered hresult hhindered => exact absurd (hplain _ hresult) hhindered

/-- A command whose checks pass and leave one write in range. -/
theorem puts_of_exec (h : s.Sound) {x : Act Memory α} {f : α → Reply} {a : α} {w : Write}
    (hperform : perform command = f <$> onCard (Card.onMemory x))
    (hexec : x.exec s.card.memory = ((fun _ => a) <$> w.act).exec s.card.memory)
    (hw : w.InRange s.card.memory.store) (hne : w.bytes ≠ []) :
    s.Puts command (f a) w.array w.offset w.bytes := by
  obtain ⟨hresult, hcard, _⟩ := step_onMemory command hperform s
  rw [hexec, Act.exec_map] at hresult hcard
  rcases hends : w.act.exec s.card.memory with ⟨e | _, m⟩
  · rw [hends] at hresult
    refine .hindered hresult fun hrefusal => ?_
    rcases Write.hindered_of_error hw h.memory h.settled (congrArg Prod.fst hends) with
      ⟨_, _, _, hloss⟩ | ⟨_, _, hfull⟩
    · rw [hrefusal.1] at hloss
      cases hloss
    · rw [hrefusal.2] at hfull
      cases hfull
  · have hleft := Write.store_of_done hw h.memory h.settled hne (congrArg Prod.fst hends)
    rw [hends] at hresult hcard hleft
    exact .done hresult (congrArg (fun card => card.memory.store) hcard |>.trans hleft)

/-! ## Elements -/

/-- Setting an element writes its stored form. -/
theorem puts_setElement (h : s.Sound) (hd : s.card.memory.store.descriptor? array = some d)
    {index : Int16} {i : Nat} (hindex : index? index = some i) (hi : i < d.length) (value : Int32) :
    s.Puts (.setElement array index value) .done array (i * d.kind.width) (d.kind.encode value) := by
  have hslot := Card.slot_of_index ((Card.descriptor_eq_ok_iff h.memory.store).mpr hd) hindex hi
  let w : Write := ⟨.participating, array, i * d.kind.width, d.kind.encode value⟩
  have hperform : perform (μ := μ) (.setElement array index value) =
      (fun _ => .done) <$> onCard (Card.onMemory (Memory.setElement array index value)) := rfl
  refine puts_of_exec (w := w) (a := ()) h hperform ?_ ⟨d, hd, ?_⟩ (encode_ne_nil _ _)
  · rw [Memory.setElement, Act.exec_query_bind_of_ok (fun m : Memory => m.slot _ _ 1) hslot,
      Act.exec_map]
    exact (Act.effect_unit w.act _).symm
  · show i * d.kind.width + (d.kind.encode value).length ≤ d.length * d.kind.width
    rw [Kind.encode_length]
    exact element_le hi

/-- An element is set only within its array. -/
theorem index_of_setElement {index : Int16} {value : Int32}
    (hd : s.card.descriptor array = .ok d)
    (hok : (step (.setElement array index value) s).result = .ok reply) :
    ∃ i, index? index = some i ∧ i < d.length := by
  obtain ⟨hresult, _⟩ := step_onMemory (.setElement array index value) rfl s
  rw [hok] at hresult
  rcases hexec : (Memory.setElement array index value).exec s.card.memory with ⟨e | _, m⟩
  · rw [hexec] at hresult
    cases hresult
  · obtain ⟨⟨d', start⟩, hslot, _⟩ := Act.exec_query_bind_eq_ok hexec
    obtain ⟨i, hd', hi, hrange, _⟩ := Memory.slot_eq_ok_iff.mp hslot
    have hsame : d' = d := Except.ok.inj (hd'.symm.trans hd)
    exact ⟨i, hi, hsame ▸ hrange⟩

/-- Loading elements writes their stored forms side by side. -/
theorem puts_loadElements (h : s.Sound) (hd : s.card.memory.store.descriptor? array = some d)
    {values : List Int32} (hvalues : values.length ≤ d.length) :
    s.Puts (.loadElements array values) .done array 0 (values.flatMap d.kind.encode) := by
  have hslot : s.card.memory.slot array 0 values.length = .ok (d, 0) :=
    Memory.slot_eq_ok_iff.mpr ⟨0, (Card.descriptor_eq_ok_iff h.memory.store).mpr hd, rfl,
      (Nat.zero_add _).symm ▸ hvalues, (Nat.zero_mul _).symm⟩
  have hlength := Nat.not_lt.mpr (Nat.le_trans hvalues (h.memory.store.length_le hd))
  cases values with
  | nil =>
    obtain ⟨hresult, hcard, _⟩ := step_onMemory (.loadElements array []) rfl s
    have hexec : (Memory.loadElements array []).exec s.card.memory = (.ok (), s.card.memory) := by
      rw [Memory.loadElements, if_neg hlength,
        Act.exec_query_bind_of_ok (fun m : Memory => m.slot _ _ _) hslot]
      rfl
    rw [hexec] at hresult hcard
    exact .done hresult (congrArg (fun card => card.memory.store) hcard)
  | cons value more =>
    let w : Write := ⟨.participating, array, 0, (value :: more).flatMap d.kind.encode⟩
    have hperform : perform (μ := μ) (.loadElements array (value :: more)) = (fun _ => .done) <$>
        onCard (Card.onMemory (Memory.loadElements array (value :: more))) := rfl
    refine puts_of_exec (w := w) (a := ()) h hperform ?_ ⟨d, hd, ?_⟩ ?_
    · rw [Memory.loadElements, if_neg hlength,
        Act.exec_query_bind_of_ok (fun m : Memory => m.slot _ _ _) hslot, Act.exec_map]
      exact (Act.effect_unit w.act _).symm
    · show 0 + ((value :: more).flatMap d.kind.encode).length ≤ d.byteLength
      rw [length_flatMap_encode, Nat.zero_add]
      exact Nat.mul_le_mul_right _ hvalues
    · simp [w, encode_ne_nil]

/-- No more elements are loaded than there are. -/
theorem length_of_loadElements {values : List Int32} (hd : s.card.descriptor array = .ok d)
    (hok : (step (.loadElements array values) s).result = .ok reply) :
    values.length ≤ d.length := by
  obtain ⟨hresult, _⟩ := step_onMemory (.loadElements array values) rfl s
  rw [hok] at hresult
  rcases hexec : (Memory.loadElements array values).exec s.card.memory with ⟨e | _, m⟩
  · rw [hexec] at hresult
    cases hresult
  · rw [Memory.loadElements, Act.exec_ite] at hexec
    split at hexec
    · cases hexec
    · obtain ⟨⟨d', start⟩, hslot, _⟩ := Act.exec_query_bind_eq_ok hexec
      obtain ⟨i, hd', _, hrange, _⟩ := Memory.slot_eq_ok_iff.mp hslot
      have hsame : d' = d := Except.ok.inj (hd'.symm.trans hd)
      exact Nat.le_trans (Nat.le_add_left _ _) (hsame ▸ hrange)

/-! ## Packed values -/

/-- A packed value is written as the bytes of its word. -/
theorem puts_writeWord (h : s.Sound) (hd : s.card.memory.store.descriptor? array = some d)
    (hkind : d.kind = .byte) {offset : Int16} {start width : Nat} {word : UInt32}
    (hoffset : index? offset = some start) (hrange : start + width ≤ d.length)
    (hpos : 0 < width) (hwidth : width ≤ 4)
    (hperform : perform command =
      .short <$> onCard (Card.onMemory (Packing.writeWord array offset word width))) :
    s.Puts command (.short (offset + Int16.ofNat width)) array start
      (BigEndian.split word width) := by
  have hwindow := Packing.window_of_range h.memory.store hd hkind hoffset hrange
  have hlength : (BigEndian.split word width).length = width := BigEndian.split_length hwidth
  let w : Write := ⟨.participating, array, start, BigEndian.split word width⟩
  refine puts_of_exec (w := w) h hperform ?_ ⟨d, hd, ?_⟩ ?_
  · rw [Packing.writeWord,
      Act.exec_query_bind_of_ok (fun m : Memory => Packing.window m.store _ _ _) hwindow]
    rfl
  · show start + (BigEndian.split word width).length ≤ d.byteLength
    rwa [hlength, Descriptor.byteLength_of_byte hkind]
  · exact List.ne_nil_of_length_pos (hlength.symm ▸ hpos)

/-! ## Several writes -/

/-- Commands that write runs of bytes side by side into an array, from a byte offset on, with what
they reply and all their bytes. -/
inductive PutsAll (array : ArrayRef) (d : Descriptor) :
    Nat → List (Command μ) → List Reply → List UInt8 → Prop where
  | nil (offset : Nat) : PutsAll array d offset [] [] []
  | cons {offset : Nat} {command : Command μ} {reply : Reply} {bytes more : List UInt8}
      {commands : List (Command μ)} {replies : List Reply} :
      (∀ s : Session μ, s.Sound → s.card.memory.store.descriptor? array = some d →
        s.Puts command reply array offset bytes) →
      PutsAll array d (offset + bytes.length) commands replies more →
      PutsAll array d offset (command :: commands) (reply :: replies) (bytes ++ more)

/-- Unless power or room are wanting on the way, all the commands are done, and leave what one write
of all their bytes leaves. -/
theorem PutsAll.run {commands : List (Command μ)} {replies : List Reply}
    (h : PutsAll array d offset commands replies bytes) (hs : s.Sound)
    (hd : s.card.memory.store.descriptor? array = some d)
    (hfits : offset + bytes.length ≤ d.byteLength)
    (hplain : ∀ e, .error e ∈ (Session.run s commands).1 → e.IsRefusal) :
    (Session.run s commands).1 = replies.map .ok ∧
      (Session.run s commands).2.card.memory.store =
        s.card.memory.store.withBytes array offset bytes := by
  induction h generalizing s with
  | nil offset => exact ⟨rfl, (Store.withBytes_nil _ _ _).symm⟩
  | @cons offset command reply bytes more commands replies hfirst _ ih =>
    rw [List.length_append, ← Nat.add_assoc] at hfits
    have hresult := (hfirst s hs hd).result_of_plain fun e he => hplain e (he ▸ .head _)
    obtain ⟨-, hstore⟩ := (hfirst s hs hd).of_ok hresult
    have hd' : (step command s).state.card.memory.store.descriptor? array = some d := by
      rw [hstore, Store.descriptor?_withBytes]
      exact hd
    obtain ⟨hresults, hleft⟩ := ih (hs.step command) hd' hfits fun e he => hplain e (.tail _ he)
    -- The bytes that follow are put where those of the first command end.
    have hoffset : ∀ cell, s.card.memory.store.table.find? array = some cell →
        offset ≤ cell.payload.length := by
      intro cell hfound
      have hcell : some d = some cell.descriptor :=
        hd.symm.trans (Table.descriptor?_eq_some_iff.mpr ⟨cell, hfound, rfl⟩)
      rw [(hs.memory.store.cells hfound).size, ← Option.some.inj hcell]
      omega
    constructor
    · exact congrArg₂ List.cons hresult hresults
    · exact hleft.trans (hstore ▸ Store.withBytes_append _ _ hoffset)

/-- Elements that are set one after the other. -/
theorem putsAll_setFrom {start : Nat} {values : List Int32} (hlength : d.length ≤ maxArrayLength)
    (hrange : start + values.length ≤ d.length) :
    PutsAll (μ := μ) array d (start * d.kind.width) (Command.setFrom array start values)
      (List.replicate values.length .done) (values.flatMap d.kind.encode) := by
  induction values generalizing start with
  | nil => exact .nil _
  | cons value more ih =>
    rw [List.length_cons] at hrange
    refine .cons (fun s hs hd => puts_setElement hs hd (index?_ofNat (by omega)) (by omega) value) ?_
    rw [Kind.encode_length, ← Nat.succ_mul]
    exact ih (by omega)

/-- Setting elements one after the other leaves all of them in place, unless it meets a want of
power or room. -/
theorem setFrom_leaves (hs : s.Sound) (hd : s.card.memory.store.descriptor? array = some d)
    {start : Nat} {values : List Int32} (hrange : start + values.length ≤ d.length)
    (hplain : ∀ e, .error e ∈ (Session.run s (Command.setFrom array start values)).1 →
      e.IsRefusal) :
    (∀ result ∈ (Session.run s (Command.setFrom array start values)).1, result = .ok .done) ∧
      (Session.run s (Command.setFrom array start values)).2.card.memory.store =
        s.card.memory.store.withBytes array (start * d.kind.width)
          (values.flatMap d.kind.encode) := by
  have hputs : PutsAll (μ := μ) array d (start * d.kind.width) (Command.setFrom array start values)
      (List.replicate values.length .done) (values.flatMap d.kind.encode) :=
    putsAll_setFrom (hs.memory.store.length_le hd) hrange
  have hfits : start * d.kind.width + (values.flatMap d.kind.encode).length ≤ d.byteLength := by
    rw [length_flatMap_encode]
    exact Descriptor.mul_width_le hrange
  obtain ⟨hresults, hleft⟩ := hputs.run hs hd hfits hplain
  refine ⟨fun result hmem => ?_, hleft⟩
  rw [hresults, List.map_replicate] at hmem
  exact List.eq_of_mem_replicate hmem

end Session

end SmartCard
