-- SUMMARY: What each store operation does to the stored bytes, to the descriptors and to the store invariant.
import SmartCard.Proofs.Exec
import SmartCard.Proofs.Store.Sound

/-!
# Updates of the store

One specification for each operation of the store. Payloads are looked at byte by byte
(`Store.byte?`), and everything about shapes is said through the descriptors, which no update but a
new array changes.
-/

namespace SmartCard

/-- One byte of an array, if the array and the byte exist. -/
def Store.byte? (s : Store) (array : ArrayRef) (i : Nat) : Option UInt8 :=
  (s.table.find? array).bind fun cell => cell.payload[i]?

/-- What an array was made as, if it exists. -/
def Store.descriptor? (s : Store) (array : ArrayRef) : Option Descriptor :=
  s.table.descriptor? array

/-- Whether an array exists and is persistent. -/
def Store.IsPersistent (s : Store) (array : ArrayRef) : Prop :=
  ∃ d, s.descriptor? array = some d ∧ d.lifetime.isPersistent = true

/-- A fault that neither a tear nor a full commit buffer raises. -/
def Fault.IsRefusal (e : Fault) : Prop := e.isPowerLoss = false ∧ e.isBufferFull = false

theorem Fault.isPowerLoss_of_isBufferFull {e : Fault} (h : e.isBufferFull = true) :
    e.isPowerLoss = false := by
  cases e with
  | commitBufferFull => rfl
  | _ => cases h

namespace Store

variable {c : Config} {s s' : Store}

/-! ## Lookup -/

theorem cell_eq_ok_iff {origin : Origin} {array : ArrayRef} {cell : Cell} :
    s.cell origin array = .ok cell ↔ array ≠ .null ∧ s.table.find? array = some cell := by
  have hnull : array.isNull = true ↔ array = .null := by
    simp [ArrayRef.isNull, ArrayRef.null, ArrayRef.ext_iff]
  unfold Store.cell
  by_cases h : array = .null
  · rw [if_pos (hnull.mpr h)]
    simp [h]
  · rw [if_neg (mt hnull.mp h)]
    rcases s.table.find? array with _ | found <;> simp [h]

theorem Sound.cell_iff (h : s.Sound c) {origin : Origin} {array : ArrayRef} {cell : Cell} :
    s.cell origin array = .ok cell ↔ s.table.find? array = some cell := by
  rw [cell_eq_ok_iff]
  constructor
  · rintro ⟨_, hfound⟩
    exact hfound
  · intro hfound
    refine ⟨?_, hfound⟩
    rintro rfl
    rw [h.null_free] at hfound
    cases hfound

theorem cell_isRefusal {origin : Origin} {array : ArrayRef} {e : Fault}
    (h : s.cell origin array = .error e) : e.IsRefusal := by
  unfold Store.cell at h
  split at h
  · cases h
    exact ⟨rfl, rfl⟩
  · split at h
    · cases h
    · cases h
      exact ⟨rfl, rfl⟩

theorem descriptor_eq_ok_iff {origin : Origin} {array : ArrayRef} {d : Descriptor} :
    s.descriptor origin array = .ok d ↔
      ∃ cell, s.cell origin array = .ok cell ∧ cell.descriptor = d := by
  unfold Store.descriptor
  rcases s.cell origin array with _ | cell <;> simp [Except.map]

theorem Sound.descriptor_iff (h : s.Sound c) {origin : Origin} {array : ArrayRef}
    {d : Descriptor} : s.descriptor origin array = .ok d ↔ s.descriptor? array = some d := by
  rw [descriptor_eq_ok_iff, Store.descriptor?, Table.descriptor?_eq_some_iff]
  simp only [h.cell_iff]

theorem Sound.length_le (h : s.Sound c) {array : ArrayRef} {d : Descriptor}
    (hd : s.descriptor? array = some d) : d.length ≤ maxArrayLength := by
  obtain ⟨cell, hfound, rfl⟩ := Table.descriptor?_eq_some_iff.mp hd
  exact (h.cells hfound).length_le

theorem read_eq_ok_iff {array : ArrayRef} {offset count : Nat} {bytes : List UInt8} :
    s.read array offset count = .ok bytes ↔
      ∃ cell, s.cell .store array = .ok cell ∧ cell.read offset count = .ok bytes := by
  unfold Store.read
  rcases s.cell .store array with _ | cell <;> simp [Except.bind]

theorem read_isRefusal {array : ArrayRef} {offset count : Nat} {e : Fault}
    (h : s.read array offset count = .error e) : e.IsRefusal := by
  unfold Store.read at h
  rcases hcell : s.cell .store array with e' | cell
  · rw [hcell] at h
    cases h
    exact cell_isRefusal hcell
  · rw [hcell] at h
    simp only [Except.bind, Cell.read] at h
    split at h
    · cases h
    · cases h
      exact ⟨rfl, rfl⟩

theorem length_of_read {array : ArrayRef} {offset count : Nat} {bytes : List UInt8}
    (h : s.read array offset count = .ok bytes) : bytes.length = count := by
  obtain ⟨cell, _, hread⟩ := read_eq_ok_iff.mp h
  exact Cell.length_of_read hread

/-- The bytes that were read are the stored ones. -/
theorem getElem?_of_read {array : ArrayRef} {offset count : Nat} {bytes : List UInt8}
    (h : s.read array offset count = .ok bytes) {i : Nat} (hlow : offset ≤ i)
    (hhigh : i < offset + count) :
    bytes[i - offset]? = s.byte? array i := by
  obtain ⟨cell, hcell, hread⟩ := read_eq_ok_iff.mp h
  rw [Cell.getElem?_of_read hread hlow hhigh, byte?, (cell_eq_ok_iff.mp hcell).2]
  rfl

/-! ## Overwriting bytes -/

/-- The table after an overwrite that is in range. -/
theorem restoreBytes_eq_ok_iff {array : ArrayRef} {offset : Nat} {bytes : List UInt8} :
    s.restoreBytes array offset bytes = .ok s' ↔
      ∃ cell, s.cell .store array = .ok cell ∧ offset + bytes.length ≤ cell.payload.length ∧
        s' = { s with table := s.table.set array (cell.splice offset bytes) } := by
  unfold restoreBytes
  rcases s.cell .store array with _ | cell
  · simp [Except.bind]
  · by_cases h : offset + bytes.length ≤ cell.payload.length
    · simp [Except.bind, Except.map, Cell.write, h, eq_comm]
    · simp [Except.bind, Except.map, Cell.write, h]

theorem restoreBytes_isRefusal {array : ArrayRef} {offset : Nat} {bytes : List UInt8} {e : Fault}
    (h : s.restoreBytes array offset bytes = .error e) : e.IsRefusal := by
  unfold restoreBytes at h
  rcases hcell : s.cell .store array with e' | cell
  · rw [hcell] at h
    cases h
    exact cell_isRefusal hcell
  · rw [hcell] at h
    simp only [Except.bind, Cell.write] at h
    split at h
    · cases h
    · cases h
      exact ⟨rfl, rfl⟩

/-- An overwrite looks only at the table, and changes only the table. -/
theorem restoreBytes_withTear (tear : Option UInt64) (array : ArrayRef) (offset : Nat)
    (bytes : List UInt8) :
    restoreBytes { s with tear := tear } array offset bytes =
      (s.restoreBytes array offset bytes).map fun s' => { s' with tear := tear } := by
  unfold restoreBytes
  show ((s.cell .store array).bind _) = _
  rcases s.cell .store array with _ | cell
  · rfl
  · simp only [Except.bind]
    rcases cell.write offset bytes with _ | _ <;> rfl

theorem tear_restoreBytes {array : ArrayRef} {offset : Nat} {bytes : List UInt8}
    (hs : s.restoreBytes array offset bytes = .ok s') : s'.tear = s.tear := by
  obtain ⟨_, _, _, rfl⟩ := restoreBytes_eq_ok_iff.mp hs
  rfl

theorem Sound.restoreBytes (h : s.Sound c) {array : ArrayRef} {offset : Nat} {bytes : List UInt8}
    (hs : s.restoreBytes array offset bytes = .ok s') : s'.Sound c := by
  obtain ⟨cell, hcell, hfits, rfl⟩ := restoreBytes_eq_ok_iff.mp hs
  have hfound := (cell_eq_ok_iff.mp hcell).2
  exact h.set hfound (Cell.splice_descriptor _ _ _) ((h.cells hfound).splice hfits)

theorem descriptor?_restoreBytes {array : ArrayRef} {offset : Nat} {bytes : List UInt8}
    (hs : s.restoreBytes array offset bytes = .ok s') : s'.descriptor? = s.descriptor? := by
  obtain ⟨cell, hcell, _, rfl⟩ := restoreBytes_eq_ok_iff.mp hs
  exact Table.descriptor?_mapCells
    (keepsDescriptors_set (cell_eq_ok_iff.mp hcell).2 (Cell.splice_descriptor _ _ _))

theorem byte?_restoreBytes {array : ArrayRef} {offset : Nat} {bytes : List UInt8}
    (hs : s.restoreBytes array offset bytes = .ok s') (other : ArrayRef) (i : Nat) :
    s'.byte? other i =
      if array = other ∧ offset ≤ i ∧ i < offset + bytes.length then bytes[i - offset]?
      else s.byte? other i := by
  obtain ⟨cell, hcell, hfits, rfl⟩ := restoreBytes_eq_ok_iff.mp hs
  have hfound := (cell_eq_ok_iff.mp hcell).2
  simp only [byte?, Table.find?_set]
  by_cases heq : other = array
  · subst heq
    simp [hfound, Cell.splice_getElem? hfits]
  · simp [heq, Ne.symm heq]

/-- An overwrite in range succeeds. -/
theorem Sound.restoreBytes_isOk (h : s.Sound c) {array : ArrayRef} {offset : Nat}
    {bytes : List UInt8} {d : Descriptor} (hd : s.descriptor? array = some d)
    (hfits : offset + bytes.length ≤ d.byteLength) :
    ∃ s', s.restoreBytes array offset bytes = .ok s' := by
  obtain ⟨cell, hfound, rfl⟩ := Table.descriptor?_eq_some_iff.mp hd
  refine ⟨_, restoreBytes_eq_ok_iff.mpr ⟨cell, h.cell_iff.mpr hfound, ?_, rfl⟩⟩
  rw [(h.cells hfound).size]
  exact hfits

/-! ## Writes out of the tear budget -/

theorem exec_put (array : ArrayRef) (offset : Nat) (bytes : List UInt8) (s : Store) :
    (put array offset bytes).exec s = match s.restoreBytes array offset bytes with
      | .ok s' => (.ok (), s')
      | .error e => (.error e, s) := by
  rw [put, Act.exec_step]
  rcases s.restoreBytes array offset bytes with _ | _ <;> rfl

/-- How a write ends: whole, torn, or refused. Only a torn write loses power, and only a refused one
spends budget on bytes that are not written. -/
inductive Written (array : ArrayRef) (offset : Nat) (bytes : List UInt8) (s : Store) :
    Except Fault Unit × Store → Prop where
  | whole {s' : Store} :
      s.restoreBytes array offset bytes = .ok s' →
      (∀ budget, s.tear = some budget → bytes.length ≤ budget.toNat) →
      Written array offset bytes s
        (.ok (), { s' with tear := s.tear.map fun budget => budget - UInt64.ofNat bytes.length })
  | torn {s' : Store} {budget : UInt64} :
      s.tear = some budget → budget.toNat < bytes.length →
      s.restoreBytes array offset (bytes.take budget.toNat) = .ok s' →
      Written array offset bytes s
        (.error (.tear budget.toNat bytes.length array), { s' with tear := none })
  | refused {e : Fault} {tear : Option UInt64} {leading : List UInt8} :
      leading <+: bytes → s.restoreBytes array offset leading = .error e → e.IsRefusal →
      Written array offset bytes s (.error e, { s with tear := tear })

theorem written (array : ArrayRef) (offset : Nat) (bytes : List UInt8) (s : Store) :
    Written array offset bytes s ((write array offset bytes).exec s) := by
  unfold write
  simp only [Act.exec_bind, Act.exec_read]
  rcases htear : s.tear with _ | budget
  · simp only [exec_put]
    rcases hput : s.restoreBytes array offset bytes with e | s'
    · have h : Written array offset bytes s (.error e, { s with tear := s.tear }) :=
        .refused List.prefix_rfl hput (restoreBytes_isRefusal hput)
      exact h
    · have h := Written.whole hput (by simp [htear])
      rw [htear, Option.map_none, ← htear, ← tear_restoreBytes hput] at h
      exact h
  · by_cases hbudget : budget.toNat < bytes.length
    · simp only [hbudget, if_true, Act.exec_bind, setTear, Act.exec_modify, exec_put,
        restoreBytes_withTear]
      rcases hput : s.restoreBytes array offset (bytes.take budget.toNat) with e | s'
      · exact .refused (List.take_prefix _ _) hput (restoreBytes_isRefusal hput)
      · have h := Written.torn htear hbudget hput
        exact h
    · simp only [hbudget, if_false, Act.exec_bind, setTear, Act.exec_modify, exec_put,
        restoreBytes_withTear]
      rcases hput : s.restoreBytes array offset bytes with e | s'
      · exact .refused List.prefix_rfl hput (restoreBytes_isRefusal hput)
      · have h := Written.whole hput (by
          intro b hb
          rw [htear, Option.some.injEq] at hb
          rw [← hb]
          omega)
        rw [htear] at h
        exact h

/-- Whatever becomes of a write, the store stays sound and no descriptor changes. -/
theorem Sound.write (h : s.Sound c) {array : ArrayRef} {offset : Nat} {bytes : List UInt8} :
    ((Store.write array offset bytes).exec s).2.Sound c := by
  have hw := Store.written array offset bytes s
  generalize (Store.write array offset bytes).exec s = r at hw ⊢
  cases hw with
  | whole hs _ => exact (h.restoreBytes hs).withTear _
  | torn _ _ hs => exact (h.restoreBytes hs).withTear _
  | refused _ _ _ => exact h.withTear _

theorem descriptor?_write (array : ArrayRef) (offset : Nat) (bytes : List UInt8) (s : Store) :
    ((write array offset bytes).exec s).2.descriptor? = s.descriptor? := by
  have hw := written array offset bytes s
  generalize (write array offset bytes).exec s = r at hw ⊢
  cases hw with
  | whole hs _ =>
    have hd := descriptor?_restoreBytes hs
    exact hd
  | torn _ _ hs =>
    have hd := descriptor?_restoreBytes hs
    exact hd
  | refused _ _ _ => rfl

/-- A write touches no byte outside its range. -/
theorem byte?_write_of_outside {array other : ArrayRef} {offset i : Nat} {bytes : List UInt8}
    (hout : ¬(array = other ∧ offset ≤ i ∧ i < offset + bytes.length)) (s : Store) :
    ((write array offset bytes).exec s).2.byte? other i = s.byte? other i := by
  have hw := written array offset bytes s
  generalize (write array offset bytes).exec s = r at hw ⊢
  cases hw with
  | whole hs _ =>
    have hb := byte?_restoreBytes hs other i
    rwa [if_neg hout] at hb
  | @torn _ budget _ hbudget hs =>
    have hb := byte?_restoreBytes hs other i
    have hlen : (bytes.take budget.toNat).length ≤ bytes.length := List.length_take_le' _ _
    rwa [if_neg fun hc => hout ⟨hc.1, hc.2.1, by omega⟩] at hb
  | refused _ _ _ => rfl

/-- A write touches one array only. -/
theorem byte?_write_of_ne {array other : ArrayRef} (hne : array ≠ other) (offset : Nat)
    (bytes : List UInt8) (s : Store) (i : Nat) :
    ((write array offset bytes).exec s).2.byte? other i = s.byte? other i :=
  byte?_write_of_outside (fun hin => hne hin.1) s

/-! ## Clearing -/

/-- What clearing makes of a cell. -/
def cleared (ends : Lifetime → Bool) (cell : Cell) : Cell :=
  if cell.descriptor.lifetime.isTransient && ends cell.descriptor.lifetime then cell.clear else cell

theorem find?_clearTransients (s : Store) (ends : Lifetime → Bool) (array : ArrayRef) :
    (s.clearTransients ends).table.find? array = (s.table.find? array).map (cleared ends) :=
  Table.find?_mapCells _ _ _

@[simp] theorem cleared_descriptor (ends : Lifetime → Bool) (cell : Cell) :
    (cleared ends cell).descriptor = cell.descriptor := by
  unfold cleared
  split
  · exact Cell.clear_descriptor cell
  · rfl

theorem cleared_of_persistent {ends : Lifetime → Bool} {cell : Cell}
    (h : cell.descriptor.lifetime.isPersistent = true) : cleared ends cell = cell := by
  simp [cleared, Lifetime.not_transient_of_persistent h]

theorem Cell.Sound.cleared {cell : Cell} (h : cell.Sound) (ends : Lifetime → Bool) :
    (Store.cleared ends cell).Sound := by
  unfold Store.cleared
  split
  · exact h.clear
  · exact h

theorem descriptor?_clearTransients (s : Store) (ends : Lifetime → Bool) :
    (s.clearTransients ends).descriptor? = s.descriptor? :=
  Table.descriptor?_mapCells fun _ => cleared_descriptor ends _

theorem Sound.clearTransients (h : s.Sound c) (ends : Lifetime → Bool) :
    (s.clearTransients ends).Sound c :=
  h.mapCells (fun _ => cleared_descriptor ends _) fun hfound =>
    Cell.Sound.cleared (h.cells hfound) ends

/-- Clearing leaves persistent arrays alone. -/
theorem byte?_clearTransients {array : ArrayRef} (h : s.IsPersistent array) (ends : Lifetime → Bool)
    (i : Nat) : (s.clearTransients ends).byte? array i = s.byte? array i := by
  obtain ⟨d, hd, hpersistent⟩ := h
  obtain ⟨cell, hfound, rfl⟩ := Table.descriptor?_eq_some_iff.mp hd
  simp [byte?, find?_clearTransients, hfound, cleared_of_persistent hpersistent]

/-! ## Flipped bits -/

theorem flipBits_eq_ok_iff {array : ArrayRef} {byte : Nat} {mask : UInt8} :
    s.flipBits array byte mask = .ok s' ↔
      ∃ cell cell', s.cell .store array = .ok cell ∧ cell.flip? byte mask = some cell' ∧
        s' = { s with table := s.table.set array cell' } := by
  unfold flipBits
  rcases s.cell .store array with _ | cell
  · simp [Except.bind]
  · rcases hflip : cell.flip? byte mask with _ | cell'
    · simp [Except.bind, hflip]
    · simp [Except.bind, hflip, eq_comm]

theorem Sound.flipBits (h : s.Sound c) {array : ArrayRef} {byte : Nat} {mask : UInt8}
    (hs : s.flipBits array byte mask = .ok s') : s'.Sound c := by
  obtain ⟨cell, cell', hcell, hflip, rfl⟩ := flipBits_eq_ok_iff.mp hs
  have hfound := (cell_eq_ok_iff.mp hcell).2
  exact h.set hfound (Cell.flip?_descriptor hflip) ((h.cells hfound).flip? hflip)

theorem descriptor?_flipBits {array : ArrayRef} {byte : Nat} {mask : UInt8}
    (hs : s.flipBits array byte mask = .ok s') : s'.descriptor? = s.descriptor? := by
  obtain ⟨cell, cell', hcell, hflip, rfl⟩ := flipBits_eq_ok_iff.mp hs
  exact Table.descriptor?_mapCells
    (keepsDescriptors_set (cell_eq_ok_iff.mp hcell).2 (Cell.flip?_descriptor hflip))

theorem byte?_flipBits_of_ne {array other : ArrayRef} {byte : Nat} {mask : UInt8}
    (hs : s.flipBits array byte mask = .ok s') (hne : array ≠ other) (i : Nat) :
    s'.byte? other i = s.byte? other i := by
  obtain ⟨cell, cell', hcell, hflip, rfl⟩ := flipBits_eq_ok_iff.mp hs
  simp [byte?, Table.find?_set, Ne.symm hne]

/-! ## New arrays -/

theorem freeRef_eq_ok {array : ArrayRef} (h : s.freeRef = .ok array) :
    s.descriptor? array = none := by
  unfold freeRef at h
  split at h
  · cases h
  · split at h
    next => cases h
    next hfree =>
      cases h
      unfold descriptor? Table.descriptor?
      rw [hfree]
      rfl

/-- A new array gets the reference that was free. -/
theorem freeRef_of_allocate {d : Descriptor} {array : ArrayRef}
    (h : s.allocate d = .ok (array, s')) :
    s.freeRef = .ok array := by
  unfold allocate at h
  split at h
  · cases h
  · split at h
    next => cases h
    next free hfree =>
      dsimp only at h
      split at h
      · cases h
      · cases h
        exact hfree

/-- The references from which the next one follows are all taken, and the next one is free. -/
theorem Sound.next_free (h : s.Sound c) {id : UInt32} (hnext : s.next = some id) :
    s.table.find? ⟨id⟩ = none ∧ id ≠ 0 ∧ id.toNat = s.table.lastId + 1 := by
  rw [h.next_eq, nextAfter] at hnext
  split at hnext
  next hlt =>
    rw [Option.some.injEq] at hnext
    have hid : id.toNat = s.table.lastId + 1 := by
      rw [← hnext, UInt32.toNat_ofNat_of_lt' hlt]
    refine ⟨?_, ?_, hid⟩
    · rcases hfound : s.table.find? ⟨id⟩ with _ | cell
      · rfl
      · have hle := Table.le_lastId hfound
        simp only at hle
        omega
    · rintro rfl
      simp at hid
  next => cases hnext

theorem Pool.toNat_available {p : Pool} (h : p.used.toNat ≤ p.capacity.toNat) :
    p.available.toNat = p.capacity.toNat - p.used.toNat := by
  have hle : p.used ≤ p.capacity := UInt32.le_iff_toNat_le.mpr h
  rw [Pool.available, if_pos hle, UInt32.toNat_sub_of_le _ _ hle]

/-- A store that takes in a sound cell under a free reference, and charges its pool, stays sound. -/
theorem Sound.insert (h : s.Sound c) {array : ArrayRef} {cell : Cell} {next : Option UInt32}
    (hcell : cell.Sound) (hfree : s.table.find? array = none) (hnull : array ≠ .null)
    (hroom : ¬(s.pools.of cell.descriptor.lifetime).available <
      UInt32.ofNat cell.descriptor.byteLength)
    (hnext : next = nextAfter (max array.id.toNat s.table.lastId)) :
    Sound c
      { s with
        table := s.table.insert array cell
        next := next
        pools := s.pools.charge cell.descriptor.lifetime
          (UInt32.ofNat cell.descriptor.byteLength) } := by
  have hsize : (UInt32.ofNat cell.descriptor.byteLength).toNat = cell.descriptor.byteLength :=
    UInt32.toNat_ofNat_of_lt' (Descriptor.byteLength_lt hcell.length_le)
  have hbytes : s.table.bytesOf cell.descriptor.lifetime + cell.descriptor.byteLength ≤
      (c.poolCapacity cell.descriptor.lifetime).toNat := by
    have hused := h.used_eq cell.descriptor.lifetime
    have hle := h.used_le cell.descriptor.lifetime
    rw [UInt32.not_lt, UInt32.le_iff_toNat_le, hsize, Pool.toNat_available (by
      rw [hused, h.capacity_eq]
      exact hle), hused, h.capacity_eq] at hroom
    omega
  have hcap : (c.poolCapacity cell.descriptor.lifetime).toNat < 2 ^ 32 := UInt32.toNat_lt _
  refine ⟨?_, ?_, ?_, ?_, ?_, ?_⟩
  · intro other found hfound
    rw [Table.find?_insert] at hfound
    split at hfound
    · rw [Option.some.injEq] at hfound
      exact hfound ▸ hcell
    · exact h.cells hfound
  · rw [Table.find?_insert, if_neg (Ne.symm hnull)]
    exact h.null_free
  · rw [Table.lastId_insert]
    exact hnext
  · intro l
    rw [Pools.of_charge]
    split
    next heq =>
      subst heq
      exact h.capacity_eq _
    next => exact h.capacity_eq l
  · intro l
    rw [Pools.of_charge, Table.bytesOf_insert l hfree, Table.charge]
    dsimp only
    split
    next heq =>
      subst heq
      rw [if_pos rfl, Pool.charge, UInt32.toNat_add, hsize, h.used_eq]
      omega
    next hne =>
      rw [if_neg (Ne.symm hne), h.used_eq, Nat.zero_add]
  · intro l
    rw [Table.bytesOf_insert l hfree, Table.charge]
    dsimp only
    split
    next heq =>
      subst heq
      omega
    next =>
      rw [Nat.zero_add]
      exact h.used_le l

theorem refAfter_eq_nextAfter (id : UInt32) : refAfter id = nextAfter id.toNat := by
  unfold refAfter nextAfter
  split
  · rw [Option.some.injEq, ← UInt32.toNat_inj, UInt32.toNat_add, UInt32.toNat_ofNat']
    rfl
  · rfl

/-- A new array is zeroed and gets the next reference. -/
theorem Sound.allocate_eq_ok_iff (h : s.Sound c) {d : Descriptor} {array : ArrayRef} :
    s.allocate d = .ok (array, s') ↔
      d.length ≤ maxArrayLength ∧ s.next = some array.id ∧
        ¬(s.pools.of d.lifetime).available < UInt32.ofNat d.byteLength ∧
        s' = { s with
          table := s.table.insert array (.zeroed d)
          next := refAfter array.id
          pools := s.pools.charge d.lifetime (UInt32.ofNat d.byteLength) } := by
  by_cases hlength : d.length ≤ maxArrayLength
  · rcases hnext : s.next with _ | id
    · simp [Store.allocate, freeRef, hnext, Nat.not_lt.mpr hlength]
    · have hfree := (h.next_free hnext).1
      by_cases hroom : (s.pools.of d.lifetime).available < UInt32.ofNat d.byteLength
      · simp [Store.allocate, freeRef, hnext, hfree, hroom, Nat.not_lt.mpr hlength]
      · simp only [Store.allocate, freeRef, hnext, hfree, hroom, Nat.not_lt.mpr hlength, if_false,
          Except.ok.injEq, Prod.mk.injEq, hlength, Option.some.injEq, true_and, not_false_eq_true]
        constructor
        · rintro ⟨rfl, rfl⟩
          exact ⟨rfl, rfl⟩
        · rintro ⟨rfl, rfl⟩
          exact ⟨rfl, rfl⟩
  · simp [Store.allocate, hlength, Nat.lt_of_not_le hlength]

theorem Sound.allocate (h : s.Sound c) {d : Descriptor} {array : ArrayRef}
    (hs : s.allocate d = .ok (array, s')) : s'.Sound c := by
  obtain ⟨hlength, hnext, hroom, rfl⟩ := h.allocate_eq_ok_iff.mp hs
  obtain ⟨hfree, hid, hlast⟩ := h.next_free hnext
  have hnull : array ≠ .null := fun heq => hid (congrArg ArrayRef.id heq)
  have hafter : refAfter array.id = nextAfter (max array.id.toNat s.table.lastId) := by
    rw [Nat.max_eq_left (by omega)]
    exact refAfter_eq_nextAfter array.id
  have hinsert := h.insert (Cell.Sound.zeroed hlength) hfree hnull (by simpa using hroom) hafter
  simpa using hinsert

theorem Sound.descriptor?_allocate (h : s.Sound c) {d : Descriptor} {array : ArrayRef}
    (hs : s.allocate d = .ok (array, s')) (other : ArrayRef) :
    s'.descriptor? other = if other = array then some d else s.descriptor? other := by
  obtain ⟨_, _, _, rfl⟩ := h.allocate_eq_ok_iff.mp hs
  show Table.descriptor? _ other = _
  rw [Table.descriptor?_insert, Cell.zeroed_descriptor]
  rfl

theorem Sound.byte?_allocate (h : s.Sound c) {d : Descriptor} {array : ArrayRef}
    (hs : s.allocate d = .ok (array, s')) (other : ArrayRef) (i : Nat) :
    s'.byte? other i =
      if other = array then (List.replicate d.byteLength 0)[i]? else s.byte? other i := by
  obtain ⟨_, _, _, rfl⟩ := h.allocate_eq_ok_iff.mp hs
  unfold byte?
  rw [Table.find?_insert]
  split
  · rw [Option.bind_some, Cell.zeroed_payload]
  · rfl

end Store

end SmartCard
