-- SUMMARY: Payloads and cells as wholes: what restoring before-images makes of them.
import SmartCard.Proofs.Memory.Undo

/-!
# Payloads

The payload of an array as one value, beside the single bytes of `Store.byte?`. Two stores that
agree on an array's descriptor and on each of its bytes agree on its payload
(`Store.payload?_eq_of_byte?`). Restoring before-images writes them onto the cell of their array one
after the other (`Cell.rewound`) and changes nothing else of the store (`Store.Rewound`).
-/

namespace SmartCard

variable {c : Config} {s s' : Store} {array : ArrayRef}

/-- All bytes of an array, if it exists. -/
def Store.payload? (s : Store) (array : ArrayRef) : Option (List UInt8) :=
  (s.table.find? array).map Cell.payload

/-- A payload with the before-image of an entry written onto it, if the entry is of this array. -/
def UndoEntry.onto (array : ArrayRef) (payload : List UInt8) (e : UndoEntry) : List UInt8 :=
  if e.array = array then
    payload.take e.offset ++ e.before ++ payload.drop (e.offset + e.before.length)
  else payload

/-- A cell of an array with before-images written back onto it, in the order given. -/
def Cell.rewound (array : ArrayRef) (cell : Cell) (entries : List UndoEntry) : Cell :=
  entries.foldl (fun cell e => if e.array = array then cell.splice e.offset e.before else cell) cell

/-- Whether an entry names an array and lies within it. -/
def UndoEntry.Fits (e : UndoEntry) (s : Store) : Prop :=
  ∃ d, s.descriptor? e.array = some d ∧ e.offset + e.before.length ≤ d.byteLength

/-! ## Cells -/

namespace Cell

@[simp] theorem rewound_nil (array : ArrayRef) (cell : Cell) : cell.rewound array [] = cell := rfl

theorem rewound_cons (array : ArrayRef) (cell : Cell) (e : UndoEntry) (older : List UndoEntry) :
    cell.rewound array (e :: older) =
      (if e.array = array then cell.splice e.offset e.before else cell).rewound array older := rfl

theorem payload_rewound (array : ArrayRef) (cell : Cell) (entries : List UndoEntry) :
    (cell.rewound array entries).payload = entries.foldl (UndoEntry.onto array) cell.payload := by
  induction entries generalizing cell with
  | nil => rfl
  | cons e older ih =>
    rw [rewound_cons, ih, List.foldl_cons, UndoEntry.onto]
    split
    · rw [splice_payload]
    · rfl

/-- Before-images of other arrays leave a cell as it is. -/
theorem rewound_of_unnamed {entries : List UndoEntry} (cell : Cell)
    (h : ∀ e ∈ entries, e.array ≠ array) : cell.rewound array entries = cell := by
  induction entries with
  | nil => rfl
  | cons e older ih =>
    obtain ⟨hfirst, hrest⟩ := List.forall_mem_cons.mp h
    rw [rewound_cons, if_neg hfirst]
    exact ih hrest

end Cell

namespace Store

/-! ## Stores -/

/-- Arrays with the same descriptor and the same bytes have the same payload. -/
theorem payload?_eq_of_byte? (hd : s'.descriptor? array = s.descriptor? array)
    (hbyte : ∀ i, s'.byte? array i = s.byte? array i) : s'.payload? array = s.payload? array := by
  unfold descriptor? Table.descriptor? at hd
  simp only [byte?] at hbyte
  unfold payload?
  rcases hfound' : s'.table.find? array with _ | cell' <;>
    rcases hfound : s.table.find? array with _ | cell <;>
    simp only [hfound', hfound, Option.map_none, Option.map_some, reduceCtorEq] at hd
  · rfl
  · rw [hfound', hfound] at hbyte
    exact congrArg some (List.ext_getElem? hbyte)

theorem payload?_eq_none_iff : s.payload? array = none ↔ s.descriptor? array = none := by
  rw [payload?, descriptor?, Table.descriptor?, Option.map_eq_none_iff, Option.map_eq_none_iff]

/-- An existing array has a payload of the size that its descriptor asks for. -/
theorem Sound.payload?_isSome (h : s.Sound c) {d : Descriptor} (hd : s.descriptor? array = some d) :
    ∃ payload, s.payload? array = some payload ∧ payload.length = d.byteLength := by
  obtain ⟨cell, hfound, rfl⟩ := Table.descriptor?_eq_some_iff.mp hd
  exact ⟨cell.payload, by rw [payload?, hfound]; rfl, (h.cells hfound).size⟩

/-! ## Restoring -/

theorem find?_restoreBytes {e : UndoEntry}
    (hs : s.restoreBytes e.array e.offset e.before = .ok s') (array : ArrayRef) :
    s'.table.find? array = (s.table.find? array).map fun cell => cell.rewound array [e] := by
  obtain ⟨cell, hcell, _, rfl⟩ := restoreBytes_eq_ok_iff.mp hs
  have hfound := (cell_eq_ok_iff.mp hcell).2
  dsimp only
  rw [Table.find?_set]
  split
  next heq =>
    subst heq
    simp only [hfound, Option.map_some, Cell.rewound_cons, Cell.rewound_nil, if_true]
  next hne =>
    simp only [Cell.rewound_cons, Cell.rewound_nil, Ne.symm hne, if_false, Option.map_id']

/-- Before-images are restored, in the order given, just when all of them lie within arrays. -/
theorem exec_restore_isOk_iff (h : s.Sound c) {entries : List UndoEntry} :
    (∃ s', (UndoLog.restore entries).exec s = (.ok (), s')) ↔ ∀ e ∈ entries, e.Fits s := by
  induction entries generalizing s with
  | nil => exact ⟨fun _ => nofun, fun _ => ⟨s, rfl⟩⟩
  | cons e older ih =>
    rw [exec_restore_cons, List.forall_mem_cons]
    constructor
    · rintro ⟨s', hs'⟩
      rcases hs : s.restoreBytes e.array e.offset e.before with fault | s₁
      · rw [hs] at hs'
        cases hs'
      · rw [hs] at hs'
        obtain ⟨cell, hcell, hfits, _⟩ := restoreBytes_eq_ok_iff.mp hs
        have hfound := h.cell_iff.mp hcell
        refine ⟨⟨cell.descriptor, Table.descriptor?_eq_some_iff.mpr ⟨cell, hfound, rfl⟩, ?_⟩, ?_⟩
        · rw [← (h.cells hfound).size]
          exact hfits
        · intro e' he'
          obtain ⟨d, hd, hfits'⟩ := (ih (h.restoreBytes hs)).mp ⟨s', hs'⟩ e' he'
          rw [descriptor?_restoreBytes hs] at hd
          exact ⟨d, hd, hfits'⟩
    · rintro ⟨⟨d, hd, hfits⟩, holder⟩
      obtain ⟨s₁, hs₁⟩ := h.restoreBytes_isOk hd hfits
      rw [hs₁]
      refine (ih (h.restoreBytes hs₁)).mpr fun e' he' => ?_
      obtain ⟨d', hd', hfits'⟩ := holder e' he'
      exact ⟨d', by rw [descriptor?_restoreBytes hs₁]; exact hd', hfits'⟩

/-- What restored before-images make of a store. -/
structure Rewound (entries : List UndoEntry) (s s' : Store) : Prop where
  cell : ∀ array,
    s'.table.find? array = (s.table.find? array).map fun cell => cell.rewound array entries
  descriptor : s'.descriptor? = s.descriptor?
  pools : s'.pools = s.pools
  next : s'.next = s.next

theorem rewound_of_restore {entries : List UndoEntry}
    (hs : (UndoLog.restore entries).exec s = (.ok (), s')) : Rewound entries s s' := by
  induction entries generalizing s with
  | nil =>
    cases hs
    exact ⟨fun _ => Option.map_id'.symm, rfl, rfl, rfl⟩
  | cons e older ih =>
    rw [exec_restore_cons] at hs
    rcases hs₁ : s.restoreBytes e.array e.offset e.before with fault | s₁
    · rw [hs₁] at hs
      cases hs
    · rw [hs₁] at hs
      obtain ⟨hcell, hd, hpools, hnext⟩ := ih hs
      refine ⟨fun array => ?_, hd.trans (descriptor?_restoreBytes hs₁), ?_, ?_⟩
      · rw [hcell, find?_restoreBytes hs₁, Option.map_map]
        rfl
      · obtain ⟨_, _, _, rfl⟩ := restoreBytes_eq_ok_iff.mp hs₁
        exact hpools
      · obtain ⟨_, _, _, rfl⟩ := restoreBytes_eq_ok_iff.mp hs₁
        exact hnext

end Store

end SmartCard
