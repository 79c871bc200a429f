-- SUMMARY: The checks of commands: whatever a command asks to write has bytes and lies within its array.
import SmartCard.Proofs.Memory.InRange
import SmartCard.Proofs.Session.Atomicity
import SmartCard.Proofs.Session.Counters

/-!
# What commands ask

The checks of a command come before its writes. Here is what they establish: a command asks for
nothing, for one operation, or for a new try counter with its first write, and the bytes it asks to
write lie within their array (`Command.Asked`). Only for the counter of a template is that array not
looked up first.
-/

namespace SmartCard

variable {μ : Type} {c : Config} {s : Store}

/-! ## Lengths -/

theorem length_flatMap_encode (k : Kind) (values : List Int32) :
    (values.flatMap k.encode).length = values.length * k.width := by
  simp [List.length_flatMap, Kind.encode_length, List.map_const']

theorem encode_ne_nil (k : Kind) (value : Int32) : k.encode value ≠ [] := by
  intro hnil
  have hlength := k.encode_length value
  have hwidth := k.width_pos
  rw [hnil, List.length_nil] at hlength
  omega

/-- Elements within an array are bytes within its payload. -/
theorem Descriptor.mul_width_le {d : Descriptor} {start count : Nat}
    (h : start + count ≤ d.length) :
    start * d.kind.width + count * d.kind.width ≤ d.byteLength := by
  rw [← Nat.add_mul]
  exact Nat.mul_le_mul_right _ h

theorem Descriptor.byteLength_of_byte {d : Descriptor} (h : d.kind = .byte) :
    d.byteLength = d.length := by
  rw [byteLength, h, Kind.width, Nat.mul_one]

/-! ## Checked ranges -/

theorem Memory.slot_range {m : Memory} {array : ArrayRef} {index : Int16} {count : Nat}
    {d : Descriptor} {start : Nat} (h : m.slot array index count = .ok (d, start)) :
    m.descriptor array = .ok d ∧ start + count * d.kind.width ≤ d.byteLength := by
  obtain ⟨i, hd, -, hrange, rfl⟩ := slot_eq_ok_iff.mp h
  exact ⟨hd, Descriptor.mul_width_le hrange⟩

theorem Packing.window_range {array : ArrayRef} {offset : Int16} {width start : Nat}
    (h : window s array offset width = .ok start) :
    ∃ d, s.descriptor .array array = .ok d ∧ start + width ≤ d.byteLength := by
  obtain ⟨d, hd, hkind, -, hrange⟩ := window_eq_ok_iff.mp h
  refine ⟨d, hd, ?_⟩
  rwa [Descriptor.byteLength_of_byte hkind]

/-- Repacking keeps the number of bytes. -/
theorem Range.repackedCount_width {source destination : Kind} {count elements : Nat}
    (h : repackedCount source destination count = .ok elements) :
    elements * destination.width = count * source.width := by
  have hdvd : destination.width < source.width → destination.width ∣ source.width := by
    cases source <;> cases destination <;> decide
  have hdvd' : source.width ≤ destination.width → source.width ∣ destination.width := by
    cases source <;> cases destination <;> decide
  unfold repackedCount at h
  split at h
  next ratio hratio =>
    unfold Kind.ratio? at hratio
    split at hratio
    · cases hratio
    next hle =>
      cases hratio
      split at h
      next hmod =>
        cases h
        generalize hr : destination.width / source.width = r at hmod
        have hwidth : r * source.width = destination.width :=
          hr ▸ Nat.div_mul_cancel (hdvd' (Nat.not_lt.mp hle))
        rw [← hwidth, ← Nat.mul_assoc, Nat.div_mul_cancel (Nat.dvd_of_mod_eq_zero hmod)]
      next => cases h
  next hratio =>
    unfold Kind.ratio? at hratio
    split at hratio
    next hlt =>
      cases h
      rw [Nat.mul_assoc, Nat.div_mul_cancel (hdvd hlt)]
    next => cases hratio

/-! ## Requests -/

namespace Command

/-- What a command may ask of a memory, given that its checks have passed. -/
inductive Asked (s : Session μ) (command : Command μ) : List Operation → Prop where
  | nothing : Asked s command []
  | other {op : Operation} : (∀ w, op ≠ .write w) → Asked s command [op]
  | write {w : Write} :
      w.bytes ≠ [] → w.InRange s.card.memory.store → Asked s command [.write w]
  | counter {position : Nat} {t : Template μ} {offset : Nat} {bytes : List UInt8} :
      command.position? = some position → s.templates[position]? = some t → bytes ≠ [] →
      offset + bytes.length ≤ TryCounter.descriptor.byteLength →
      Asked s command [.write ⟨.unconditional, t.counter, offset, bytes⟩]
  | enrolment {array : ArrayRef} {limit : UInt8} :
      s.card.memory.store.freeRef = .ok array →
      Asked s command
        [.allocate TryCounter.descriptor, .write ⟨.unconditional, array, 0, [limit, limit]⟩]

open AsksFor

theorem asked_writes {s : Session μ} {command : Command μ} {lane : Lane} {array : ArrayRef}
    {offset : Nat} {bytes : List UInt8}
    (h : Write.InRange ⟨lane, array, offset, bytes⟩ s.card.memory.store) :
    Asked s command (writes lane array offset bytes) := by
  unfold writes
  cases bytes with
  | nil => exact .nothing
  | cons first more => exact .write nofun h

/-- A packed value has bytes and lies within its window. -/
theorem asked_word {s : Session μ} {command : Command μ} (h : s.card.memory.store.Sound c)
    (array : ArrayRef) (offset : Int16) (word : UInt32) {width : Nat} (hpos : 0 < width)
    (hle : width ≤ 4) :
    AsksFor (Asked s command) (do
      let start ← Packing.window s.card.memory.store array offset width
      pure [.write ⟨.participating, array, start, BigEndian.split word width⟩]) := by
  refine checked fun start hstart => ?_
  obtain ⟨d, hd, hrange⟩ := Packing.window_range hstart
  have hlength : (BigEndian.split word width).length = width := BigEndian.split_length hle
  have hbytes : BigEndian.split word width ≠ [] := by
    refine List.ne_nil_of_length_pos ?_
    rw [hlength]
    exact hpos
  refine made (.write hbytes ⟨d, h.descriptor_iff.mp hd, ?_⟩)
  dsimp only
  rw [hlength]
  exact hrange

theorem asked_settling {s : Session μ} {command : Command μ} {position : Nat} {t : Template μ}
    (hposition : command.position? = some position) (ht : s.templates[position]? = some t)
    (m : Memory) (score : Int16) : AsksFor (Asked s command) (settling m t.counter score) := by
  unfold settling
  split
  · exact refused _
  · exact made .nothing
  · exact checked fun _ _ => made (.counter hposition ht nofun (Nat.le_refl 2))
  · exact checked fun _ _ => made (.counter hposition ht nofun (Nat.le_refl 2))

/-- What the checks of a command establish. -/
theorem asked_request [Matcher μ] {s : Session μ} (h : s.card.memory.store.Sound c)
    (command : Command μ) : AsksFor (Asked s command) (command.request s) := by
  have hother : ∀ op : Operation, (∀ w, op ≠ .write w) → AsksFor (Asked s command) (.ok [op]) :=
    fun op hop => made (.other hop)
  have hquery : AsksFor (Asked s command) (((Session.perform command).exec s).1.map fun _ => []) :=
    query .nothing _
  cases command
  case begin => exact hother .begin nofun
  case commit => exact hother .commit nofun
  case abort => exact hother .abort nofun
  case reset => exact hother .reset nofun
  case deselect => exact hother .deselect nofun
  case injectPowerLoss bytes => exact hother (.arm bytes) nofun
  case injectBitFlip array byte mask => exact hother (.flip array byte mask) nofun
  case makePersistent => exact checked fun _ _ => hother _ nofun
  case makeTransient kind length event =>
    unfold request
    dsimp only
    split
    · exact refused _
    · exact either (checked fun _ _ => hother _ nofun) (refused _)
  case makeSensitive => exact checked fun _ _ => hother _ nofun
  case setElement array index value =>
    refine checked fun a ha => made (.write (encode_ne_nil _ _) ?_)
    obtain ⟨hd, hrange⟩ := Memory.slot_range ha
    refine ⟨a.1, h.descriptor_iff.mp hd, ?_⟩
    dsimp only
    rw [Kind.encode_length]
    omega
  case loadElements array values =>
    refine either (refused _) (checked fun a ha => ?_)
    obtain ⟨hd, hrange⟩ := Memory.slot_range ha
    have hlength := length_flatMap_encode a.1.kind values
    have hwidth := a.1.kind.width_pos
    cases values with
    | nil => exact made .nothing
    | cons first more =>
      refine made (.write (fun hnil => encode_ne_nil _ _ (List.append_eq_nil_iff.mp hnil).1)
        ⟨a.1, h.descriptor_iff.mp hd, ?_⟩)
      dsimp only
      rw [hlength]
      omega
  case copy p source sourceOffset sourceLength destination destinationOffset =>
    refine checked fun plan hplan => checked fun bytes hbytes => made (asked_writes ?_)
    obtain ⟨x, y, start, count, target, _, hy, _, _, _, _, helements, hrange, _, hplan⟩ :=
      Range.Copy.plan_eq_ok hplan
    obtain ⟨d, hd, _, rfl⟩ := Range.operand_eq_ok_iff.mp hy
    refine ⟨d, h.descriptor_iff.mp hd, ?_⟩
    have hlength := Store.length_of_read hbytes
    have hbytesRange := Descriptor.mul_width_le (d := d) hrange
    have hwidth : plan.elements * d.kind.width = count * x.width :=
      Range.repackedCount_width helements
    rw [hplan] at hlength ⊢
    dsimp only at hlength ⊢
    rw [hlength, ← hwidth]
    exact hbytesRange
  case fill p array offset length valueArray valueOffset =>
    refine checked fun plan hplan => checked fun element helement => made (asked_writes ?_)
    obtain ⟨x, y, hx, _, _, _, _, _, hrange, _, _, hwidth⟩ := Range.Fill.plan_eq_ok hplan
    obtain ⟨d, hd, _, rfl⟩ := Range.operand_eq_ok_iff.mp hx
    refine ⟨d, h.descriptor_iff.mp hd, ?_⟩
    have hlength : (List.replicate plan.count element).flatten.length =
        plan.count * plan.width := by
      simp [Store.length_of_read helement]
    have hbytesRange := Descriptor.mul_width_le (d := d) hrange
    dsimp only
    rw [hlength, hwidth]
    exact hbytesRange
  case setShort array offset value => exact asked_word h array offset _ (by decide) (by decide)
  case setInt array offset value => exact asked_word h array offset _ (by decide) (by decide)
  case clearArray array =>
    refine checked fun cell hcell => ?_
    have hfound := h.cell_iff.mp (sensitiveCell_eq_ok hcell)
    by_cases hsize : cell.descriptor.byteLength = 0
    · dsimp only
      rw [if_pos hsize]
      exact made .nothing
    · dsimp only
      rw [if_neg hsize]
      refine made (.write (fun hnil => hsize (by simpa using hnil)) ?_)
      refine ⟨cell.descriptor, Table.descriptor?_eq_some_iff.mpr ⟨cell, hfound, rfl⟩, ?_⟩
      dsimp only
      rw [List.length_replicate]
      omega
  case makeTemplate => exact checked fun _ _ => checked fun _ hfree => made (.enrolment hfree)
  case templateInitMatch =>
    exact .onTemplate fun t ht => checked fun _ _ => checked fun _ _ =>
      either (made .nothing) (asked_settling rfl ht _ _)
  case templateMatch =>
    exact .onTemplate fun t ht => either (asked_settling rfl ht _ _) (refused _)
  case templateResetTryLimit =>
    exact .onTemplate fun t ht => checked fun _ _ => made (.counter rfl ht nofun (Nat.le_refl 2))
  all_goals exact hquery

end Command

end SmartCard
