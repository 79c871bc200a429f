-- SUMMARY: Elements and what is read of them: reads return what writes stored, one by one or all at once.
import SmartCard.Proofs.Session.SingleWrites

/-!
# Stored values

What is read of an element is what was stored last, truncated to the width of the array. A write is
judged by what can be read before and after it: the elements it makes (`Card.getElement_written`),
and the others, which are as they were (`Card.getElement_beside`).
-/

namespace SmartCard

variable {μ : Type} {c c' : Config} {before after : Card} {array : ArrayRef} {d : Descriptor}
  {index : Int16} {offset i k : Nat} {bytes : List UInt8} {values : List Int32}

/-! ## What a write leaves -/

namespace Store

variable {s : Store}

/-- Whether an array is found, and as what, hangs on its descriptor alone. -/
theorem descriptor_congr {s' : Store} {other : ArrayRef}
    (h : s'.descriptor? other = s.descriptor? other) (origin : Origin) :
    s'.descriptor origin other = s.descriptor origin other := by
  unfold Store.descriptor? Table.descriptor? at h
  unfold Store.descriptor Store.cell
  generalize s'.table.find? other = after, s.table.find? other = before at h ⊢
  rcases after with _ | cell' <;> rcases before with _ | cell
  · rfl
  · cases h
  · cases h
  · split
    · rfl
    · exact congrArg Except.ok (Option.some.inj h)

theorem descriptor_withBytes (origin : Origin) (other : ArrayRef) :
    (s.withBytes array offset bytes).descriptor origin other = s.descriptor origin other :=
  descriptor_congr (congrFun descriptor?_withBytes other) origin

/-- The payload of an array whose first bytes are written. -/
theorem payload_withBytes {cell : Cell} (hfound : s.table.find? array = some cell)
    (bytes : List UInt8) :
    ∃ written, (s.withBytes array 0 bytes).table.find? array = some written ∧
      written.descriptor = cell.descriptor ∧
      written.payload = bytes ++ cell.payload.drop bytes.length := by
  by_cases hne : bytes = []
  · subst hne
    exact ⟨cell, by rwa [withBytes_nil], rfl, rfl⟩
  · refine ⟨cell.splice 0 bytes, ?_, cell.splice_descriptor 0 bytes, ?_⟩
    · rw [find?_withBytes hne, hfound, Option.map_some]
    · rw [Cell.splice_payload, List.take_zero, List.nil_append, Nat.zero_add]

end Store

namespace Card

theorem descriptor_written
    (hstore : after.memory.store = before.memory.store.withBytes array offset bytes)
    (other : ArrayRef) : after.descriptor other = before.descriptor other := by
  unfold Card.descriptor Memory.descriptor
  rw [hstore, Store.descriptor_withBytes]

/-- An element is read from the bytes that are written for it. -/
theorem getElement_written (hbefore : before.memory.store.Sound c)
    (hd : before.memory.store.descriptor? array = some d)
    (hfits : offset + bytes.length ≤ d.byteLength)
    (hstore : after.memory.store = before.memory.store.withBytes array offset bytes)
    (hindex : index? index = some i) (hi : i < d.length) (hoffset : i * d.kind.width = offset + k)
    (hpart : k + d.kind.width ≤ bytes.length) :
    after.getElement array index = .ok (d.kind.decode ((bytes.drop k).take d.kind.width)) := by
  have hfound := (descriptor_written hstore array).trans ((descriptor_eq_ok_iff hbefore).mpr hd)
  have hread := hbefore.read_withBytes_inside hd hfits hpart
  rw [← hstore, ← hoffset] at hread
  exact getElement_of_read hfound hindex hi hread

/-- A single element is read from its bytes. -/
theorem getElement_put (hbefore : before.memory.store.Sound c)
    (hd : before.memory.store.descriptor? array = some d)
    (hstore : after.memory.store = before.memory.store.withBytes array (i * d.kind.width) bytes)
    (hindex : index? index = some i) (hi : i < d.length) (hwidth : bytes.length = d.kind.width) :
    after.getElement array index = .ok (d.kind.decode bytes) := by
  have hfits : i * d.kind.width + bytes.length ≤ d.byteLength := by
    rw [hwidth]
    exact element_le hi
  have hpart : 0 + d.kind.width ≤ bytes.length := by rw [hwidth, Nat.zero_add]
  have helement := getElement_written hbefore hd hfits hstore hindex hi rfl hpart
  rwa [List.drop_zero, ← hwidth, List.take_length] at helement

/-- Elements beside the written bytes are as before. -/
theorem getElement_beside (hbefore : before.memory.store.Sound c)
    (hd : before.memory.store.descriptor? array = some d)
    (hfits : offset + bytes.length ≤ d.byteLength)
    (hstore : after.memory.store = before.memory.store.withBytes array offset bytes)
    {other : ArrayRef} (hout : ∀ i, other = array → index? index = some i →
      (i + 1) * d.kind.width ≤ offset ∨ offset + bytes.length ≤ i * d.kind.width) :
    after.getElement other index = before.getElement other index := by
  refine getElement_congr (descriptor_written hstore other) fun d' i hd' hindex _ => ?_
  rw [hstore]
  refine hbefore.read_withBytes_outside hd hfits fun hother => ?_
  -- Two descriptors of one array are the same.
  have hsame : d' = d := by
    rw [hother, descriptor_eq_ok_iff hbefore, hd, Option.some.injEq] at hd'
    exact hd'.symm
  rw [hsame, ← Nat.succ_mul]
  exact hout i hother hindex

/-- What is read of a whole array whose first bytes are written. -/
theorem rawBytes_written (hbefore : before.memory.store.Sound c)
    (hafter : after.memory.store.Sound c') {cell : Cell}
    (hfound : before.memory.store.table.find? array = some cell)
    (hstore : after.memory.store = before.memory.store.withBytes array 0 bytes) :
    before.rawBytes array = .ok cell.payload ∧
      after.rawBytes array = .ok (bytes ++ cell.payload.drop bytes.length) := by
  obtain ⟨written, hwritten, _, hpayload⟩ := Store.payload_withBytes hfound bytes
  rw [← hstore] at hwritten
  exact ⟨rawBytes_of_found hbefore hfound, hpayload ▸ rawBytes_of_found hafter hwritten⟩

/-- The elements of an array whose first ones are written. -/
theorem elements_written (hbefore : before.memory.store.Sound c)
    (hafter : after.memory.store.Sound c') (hd : before.memory.store.descriptor? array = some d)
    (hstore : after.memory.store =
      before.memory.store.withBytes array 0 (values.flatMap d.kind.encode)) :
    ∃ old, before.elements array = .ok old ∧
      after.elements array = .ok (values.map d.kind.truncate ++ old.drop values.length) := by
  obtain ⟨cell, hfound, rfl⟩ := Table.descriptor?_eq_some_iff.mp hd
  obtain ⟨written, hwritten, hdescriptor, hpayload⟩ :=
    Store.payload_withBytes hfound (values.flatMap cell.descriptor.kind.encode)
  rw [← hstore] at hwritten
  refine ⟨_, elements_of_found hbefore hfound, ?_⟩
  rw [elements_of_found hafter hwritten, hdescriptor, hpayload, chunks_encode_append,
    length_flatMap_encode, chunks_drop, List.map_append, List.map_map, List.map_drop]
  have htruncate : cell.descriptor.kind.decode ∘ cell.descriptor.kind.encode =
      cell.descriptor.kind.truncate := funext fun value => Kind.decode_encode _ value
  rw [htruncate]

/-- The elements of an array, stored again, are the bytes that it has. -/
theorem rawBytes_of_elements (h : before.memory.store.Sound c)
    (hd : before.memory.store.descriptor? array = some d)
    (hvalues : before.elements array = .ok values) :
    before.rawBytes array = .ok (values.flatMap d.kind.encode) := by
  obtain ⟨cell, hfound, rfl⟩ := Table.descriptor?_eq_some_iff.mp hd
  rw [elements_of_found h hfound, Except.ok.injEq] at hvalues
  rw [rawBytes_of_found h hfound, ← hvalues, flatMap_encode_decode (h.cells hfound).size]

end Card

namespace Session

variable [Matcher μ] {s : Session μ} {value : Int32} {reply : Reply}

/-! ## One element -/

/-- Unless power or room are wanting, an element is set exactly within its array. -/
theorem setElement_isOk_iff (hs : s.Sound) (hd : s.card.descriptor array = .ok d)
    (hplain : ∀ e, (step (.setElement array index value) s).result = .error e → e.IsRefusal) :
    (∃ reply, (step (.setElement array index value) s).result = .ok reply) ↔
      0 ≤ index.toInt ∧ index.toInt < d.length := by
  constructor
  · rintro ⟨reply, hok⟩
    obtain ⟨i, hindex, hi⟩ := index_of_setElement hd hok
    have hvalue := Range.index?_eq_some_iff.mp hindex
    omega
  · rintro ⟨hlow, hhigh⟩
    have hindex := Range.index?_of_nonneg hlow
    have hfound := (Card.descriptor_eq_ok_iff hs.memory.store).mp hd
    have hputs := puts_setElement hs hfound hindex (by omega) value
    exact ⟨_, hputs.result_of_plain hplain⟩

/-- An element that has been set is read as its value, truncated, and all others are as before. -/
theorem setElement_read (hs : s.Sound) (hd : s.card.descriptor array = .ok d)
    (hok : (step (.setElement array index value) s).result = .ok reply) :
    (step (.setElement array index value) s).state.card.getElement array index =
        .ok (d.kind.truncate value) ∧
      ∀ other j, ¬(other = array ∧ j = index) →
        (step (.setElement array index value) s).state.card.getElement other j =
          s.card.getElement other j := by
  have hbefore := hs.memory.store
  have hfound := (Card.descriptor_eq_ok_iff hbefore).mp hd
  obtain ⟨i, hindex, hi⟩ := index_of_setElement hd hok
  obtain ⟨-, hstore⟩ := (puts_setElement hs hfound hindex hi value).of_ok hok
  have hlength := d.kind.encode_length value
  have hfits : i * d.kind.width + (d.kind.encode value).length ≤ d.byteLength := by
    rw [hlength]
    exact element_le hi
  constructor
  · rw [Card.getElement_put hbefore hfound hstore hindex hi hlength, Kind.decode_encode]
  · intro other j hne
    refine Card.getElement_beside hbefore hfound hfits hstore fun i' hother hj => ?_
    have hdifferent : i' ≠ i := by
      rintro rfl
      refine hne ⟨hother, Int16.toInt_inj.mp ?_⟩
      rw [Range.index?_eq_some_iff.mp hj, Range.index?_eq_some_iff.mp hindex]
    rw [hlength, ← Nat.succ_mul]
    exact (Nat.lt_or_gt_of_ne hdifferent).imp (Nat.mul_le_mul_right _) (Nat.mul_le_mul_right _)

/-! ## All elements -/

/-- Unless power or room are wanting, elements are loaded exactly if there are as many. -/
theorem loadElements_isOk_iff (hs : s.Sound) (hd : s.card.descriptor array = .ok d)
    (hplain : ∀ e, (step (.loadElements array values) s).result = .error e → e.IsRefusal) :
    (∃ reply, (step (.loadElements array values) s).result = .ok reply) ↔
      values.length ≤ d.length := by
  constructor
  · rintro ⟨reply, hok⟩
    exact length_of_loadElements hd hok
  · intro hvalues
    have hfound := (Card.descriptor_eq_ok_iff hs.memory.store).mp hd
    exact ⟨_, (puts_loadElements hs hfound hvalues).result_of_plain hplain⟩

/-- Where elements are loaded, setting them one after the other leaves the same store, unless power
or room are wanting on the way. -/
theorem setFrom_of_loadElements (hs : s.Sound) (hd : s.card.descriptor array = .ok d)
    (hok : (step (.loadElements array values) s).result = .ok reply)
    (hplain : ∀ e, .error e ∈ (run s (Command.setFrom array 0 values)).1 → e.IsRefusal) :
    (∀ result ∈ (run s (Command.setFrom array 0 values)).1, result = .ok .done) ∧
      (run s (Command.setFrom array 0 values)).2.card.memory.store =
        (step (.loadElements array values) s).state.card.memory.store := by
  have hfound := (Card.descriptor_eq_ok_iff hs.memory.store).mp hd
  have hvalues := length_of_loadElements hd hok
  obtain ⟨-, hstore⟩ := (puts_loadElements hs hfound hvalues).of_ok hok
  obtain ⟨hdone, hleft⟩ := setFrom_leaves hs hfound (by rwa [Nat.zero_add]) hplain
  rw [Nat.zero_mul] at hleft
  exact ⟨hdone, hleft.trans hstore.symm⟩

/-- Elements are set one after the other only within their array. -/
theorem length_of_setFrom (hs : s.Sound) (hd : s.card.descriptor array = .ok d) {start : Nat}
    (hstart : start ≤ d.length)
    (hdone : ∀ result ∈ (run s (Command.setFrom array start values)).1, result = .ok .done) :
    start + values.length ≤ d.length := by
  induction values generalizing s start with
  | nil => exact hstart
  | cons value more ih =>
    have hfound := (Card.descriptor_eq_ok_iff hs.memory.store).mp hd
    have hfirst := hdone _ (.head _)
    obtain ⟨i, hindex, hi⟩ := index_of_setElement hd hfirst
    rw [index?_ofNat (Nat.le_trans hstart (hs.memory.store.length_le hfound)),
      Option.some.injEq] at hindex
    subst hindex
    obtain ⟨-, hstore⟩ := (puts_setElement hs hfound (index?_ofNat
      (Nat.le_trans hstart (hs.memory.store.length_le hfound))) hi value).of_ok hfirst
    have hd' := (Card.descriptor_written hstore array).trans hd
    have hmore := ih (hs.step _) hd' hi fun result hmem => hdone result (.tail _ hmem)
    rw [List.length_cons]
    omega

/-! ## The law -/

/-- Reads of an array return what writes stored. The elements are those that are read one by one.
Unless power is lost or the commit buffer is full, an element is set exactly within the array; it is
then read as its value, truncated to the width of the kind, and every other element as before.
Likewise values are loaded exactly if there are as many elements; the elements are then the
truncated values, and behind them what they were before. Loading the elements that there are leaves
all bytes as they are. Setting the elements to the values one after the other from the same state is
done exactly if loading them is, and leaves the same store. -/
theorem reads_return_writes (hreachable : s.Reachable) {array : ArrayRef} {d : Descriptor}
    (hd : s.card.descriptor array = .ok d) :
    ((∃ values, s.card.elements array = .ok values) ∧
      s.card.elements array = s.card.readEach array 0 d.length) ∧
    (∀ (index : Int16) (value : Int32),
      let o := step (.setElement array index value) s
      ((∀ e, o.result = .error e → e.IsRefusal) →
        ((∃ reply, o.result = .ok reply) ↔ 0 ≤ index.toInt ∧ index.toInt < d.length)) ∧
      ∀ reply, o.result = .ok reply →
        o.state.card.getElement array index = .ok (d.kind.truncate value) ∧
        ∀ other j, ¬(other = array ∧ j = index) →
          o.state.card.getElement other j = s.card.getElement other j) ∧
    ∀ values : List Int32,
      let o := step (.loadElements array values) s
      let each := run s (Command.setFrom array 0 values)
      ((∀ e, o.result = .error e → e.IsRefusal) →
        ((∃ reply, o.result = .ok reply) ↔ values.length ≤ d.length)) ∧
      (∀ reply, o.result = .ok reply →
        (∃ old, s.card.elements array = .ok old ∧ o.state.card.elements array =
          .ok (values.map d.kind.truncate ++ old.drop values.length)) ∧
        (s.card.elements array = .ok values →
          o.state.card.rawBytes array = s.card.rawBytes array) ∧
        ((∀ e, .error e ∈ each.1 → e.IsRefusal) →
          (∀ result ∈ each.1, result = .ok .done) ∧
            each.2.card.memory.store = o.state.card.memory.store)) ∧
      ((∀ e, o.result = .error e → e.IsRefusal) → (∀ result ∈ each.1, result = .ok .done) →
        ∃ reply, o.result = .ok reply) := by
  have hs := hreachable.sound
  have hbefore := hs.memory.store
  have hfound := (Card.descriptor_eq_ok_iff hbefore).mp hd
  refine ⟨⟨?_, Card.elements_eq_readEach hbefore hfound⟩, fun index value => ?_, fun values => ?_⟩
  · obtain ⟨cell, hcell, _⟩ := Table.descriptor?_eq_some_iff.mp hfound
    exact ⟨_, Card.elements_of_found hbefore hcell⟩
  · exact ⟨setElement_isOk_iff hs hd, fun reply hok => setElement_read hs hd hok⟩
  · have hafter := (hs.step (.loadElements array values)).memory.store
    refine ⟨loadElements_isOk_iff hs hd, fun reply hok => ⟨?_, fun hvalues => ?_, ?_⟩,
      fun hplain hdone => ?_⟩
    · obtain ⟨-, hstore⟩ :=
        (puts_loadElements hs hfound (length_of_loadElements hd hok)).of_ok hok
      exact Card.elements_written hbefore hafter hfound hstore
    · obtain ⟨-, hstore⟩ :=
        (puts_loadElements hs hfound (length_of_loadElements hd hok)).of_ok hok
      obtain ⟨cell, hcell, _⟩ := Table.descriptor?_eq_some_iff.mp hfound
      obtain ⟨hold, hnew⟩ := Card.rawBytes_written hbefore hafter hcell hstore
      -- The bytes that are written are the payload, so that nothing is left behind them.
      have hsame := hold.symm.trans (Card.rawBytes_of_elements hbefore hfound hvalues)
      rw [Except.ok.injEq] at hsame
      rw [hnew, hold, ← hsame, List.drop_length, List.append_nil]
    · exact setFrom_of_loadElements hs hd hok
    · have hvalues := length_of_setFrom hs hd (Nat.zero_le _) hdone
      exact (loadElements_isOk_iff hs hd hplain).mpr (by omega)

/-- A value too wide for a byte is read truncated, and two that are loaded leave the other two
elements. -/
theorem reads_return_writes_oneArray :
    (step (.setElement ⟨1⟩ 2 200) oneArray).state.card.getElement ⟨1⟩ 2 = .ok (-56) ∧
      ∃ old, oneArray.card.elements ⟨1⟩ = .ok old ∧
        (step (.loadElements ⟨1⟩ [300, -1]) oneArray).state.card.elements ⟨1⟩ =
          .ok ([44, -1] ++ old.drop 2) := by
  have hreachable : oneArray.Reachable := reachable_fresh.run _
  have hd : oneArray.card.descriptor ⟨1⟩ = .ok ⟨.byte, 4, .persistent, false⟩ := by rfl
  have hset : (step (.setElement ⟨1⟩ 2 200) oneArray).result = .ok .done := by rfl
  have hload : (step (.loadElements ⟨1⟩ [300, -1]) oneArray).result = .ok .done := by rfl
  obtain ⟨-, hone, hall⟩ := reads_return_writes hreachable hd
  exact ⟨((hone 2 200).2 _ hset).1, ((hall [300, -1]).2.1 _ hload).1⟩

end Session

end SmartCard
