-- SUMMARY: Which bytes of a write reach an array, and what is left in an array out of the undo log at every moment of an operation.
import SmartCard.Proofs.Memory.Frame
import SmartCard.Proofs.Memory.Logging
import SmartCard.Proofs.Memory.Payloads

/-!
# Bytes that land

A write on the unconditional lane puts its bytes in place or, where the tear budget does not cover
all of them, those that it covers (`Write.covered`); what the recovery does after that leaves them
there. The array is followed through each operation from moment to moment (`Operation.Passage`): the
memory that the operation finds, for a write the memories in which it is issued and in which the
store has taken its bytes, and the memory that is left.
-/

namespace SmartCard

variable {c : Config} {m m' : Memory} {array : ArrayRef} {before after : List UInt8}

/-- The bytes of a write that a memory puts in place. -/
def Write.covered (w : Write) (m : Memory) : List UInt8 :=
  match m.store.tear with
  | none => w.bytes
  | some budget => w.bytes.take budget.toNat

/-- A payload with the bytes of a write that are put in place. -/
def Write.onto (w : Write) (m : Memory) (payload : List UInt8) : List UInt8 :=
  payload.take w.offset ++ w.covered m ++ payload.drop (w.offset + (w.covered m).length)

/-- An array has this payload, and the undo log does not name it, so that no rollback will touch it.
-/
structure Memory.Shows (array : ArrayRef) (payload : List UInt8) (m : Memory) : Prop where
  payload : m.store.payload? array = some payload
  unlogged : m.Unlogged array

/-- What becomes of the payload of an array in an operation, from moment to moment. -/
structure Operation.Passage (array : ArrayRef) (before after : List UInt8) (m : Memory)
    (op : Operation) : Prop where
  found : m.Shows array before
  issued : ∀ {w m'}, op = .write w → w.issued m = .ok m' → m'.Shows array before
  stored : ∀ {w m'}, op = .write w → w.issued m = .ok m' → (w.stored m').Shows array after
  left : (op.act.exec m).2.Shows array after

/-! ## Other arrays -/

theorem Memory.Spares.payload? (h : Memory.Spares array m m') :
    m'.store.payload? array = m.store.payload? array :=
  Store.payload?_eq_of_byte? h.descriptor h.byte

theorem Memory.Shows.spared (h : m.Shows array before) (hspares : Memory.Spares array m m') :
    m'.Shows array before := ⟨hspares.payload?.trans h.payload, hspares.unlogged⟩

/-- An operation that does not name an array leaves its payload as it is at every moment. -/
theorem Operation.passage_of_spared (h : m.Sound c) (hs : m.Settled)
    (hp : m.store.IsPersistent array) (hshows : m.Shows array before) {op : Operation}
    (hop : ¬op.Names array) : op.Passage array before before m := by
  have hu := hshows.unlogged
  refine ⟨hshows, ?_, ?_, hshows.spared (spares_act h hs hp hop hu)⟩
  · rintro w m' rfl hm
    exact hshows.spared (Write.spares_issued hop hu hm)
  · rintro w m' rfl hm
    have hissued := Write.spares_issued hop hu hm
    exact hshows.spared (hissued.trans (Write.spares_stored hop hissued.unlogged))

/-- Operations that do not name an array leave its payload as it is, one after the other. -/
theorem Operation.Steps.passages {trace : List (Memory × Operation)}
    (h : Operation.Steps m trace m') (hm : m.Sound c) (hs : m.Settled)
    (hp : m.store.IsPersistent array) (hshows : m.Shows array before)
    (hops : ∀ step ∈ trace, ¬step.2.Names array) :
    m'.Shows array before ∧ ∀ step ∈ trace, step.2.Passage array before before step.1 := by
  induction h with
  | nil => exact ⟨hshows, nofun⟩
  | @cons m _ op _ _ ih =>
    have hop := hops (m, op) List.mem_cons_self
    have hfirst := Operation.passage_of_spared hm hs hp hshows hop
    have hspares := Operation.spares_act hm hs hp hop hshows.unlogged
    have hrest := fun step hstep => hops step (List.mem_cons_of_mem _ hstep)
    obtain ⟨hend, hmore⟩ := ih (Operation.sound_act hm hs op) (Operation.settled_act hm hs op)
      (hspares.isPersistent hp) hfirst.left hrest
    exact ⟨hend, List.forall_mem_cons.mpr ⟨hfirst, hmore⟩⟩

/-! ## The array itself -/

theorem Store.payload?_restoreBytes {s s' : Store} {offset : Nat} {bytes payload : List UInt8}
    (hs : s.restoreBytes array offset bytes = .ok s') (hpayload : s.payload? array = some payload) :
    s'.payload? array =
      some (payload.take offset ++ bytes ++ payload.drop (offset + bytes.length)) := by
  obtain ⟨cell, hcell, _, rfl⟩ := restoreBytes_eq_ok_iff.mp hs
  have hfound := (cell_eq_ok_iff.mp hcell).2
  unfold payload? at hpayload ⊢
  rw [hfound, Option.map_some, Option.some.injEq] at hpayload
  rw [Table.find?_set, if_pos rfl, hfound, Option.map_some, Option.map_some, Cell.splice_payload,
    hpayload]

namespace Write

variable {w : Write} {d : Descriptor}

/-- The store takes what the tear budget covers. -/
theorem payload?_stored (h : m.Sound c) (hd : m.store.descriptor? w.array = some d)
    (hfits : w.offset + w.bytes.length ≤ d.byteLength)
    (hpayload : m.store.payload? w.array = some before) :
    (w.stored m).store.payload? w.array = some (w.onto m before) := by
  have hw := w.written m
  generalize w.answer m = r at hw
  generalize (w.stored m).store = s at hw
  cases hw with
  | @whole s' hput hbudget =>
    have hcovered : w.covered m = w.bytes := by
      unfold covered
      rcases htear : m.store.tear with _ | budget
      · rfl
      · exact List.take_of_length_le (hbudget budget htear)
    rw [onto, hcovered, ← Store.payload?_restoreBytes hput hpayload]
    rfl
  | @torn s' budget htear _ hput =>
    have hcovered : w.covered m = w.bytes.take budget.toNat := by
      unfold covered
      rw [htear]
    rw [onto, hcovered, ← Store.payload?_restoreBytes hput hpayload]
    rfl
  | @refused _ _ leading hprefix hput _ =>
    have hlength : leading.length ≤ w.bytes.length := hprefix.length_le
    have hfits' : w.offset + leading.length ≤ d.byteLength := by omega
    obtain ⟨s', hs'⟩ := h.store.restoreBytes_isOk hd hfits'
    rw [hput] at hs'
    cases hs'

/-- A write on the unconditional lane lands as far as the tear budget goes, and stays. -/
theorem passage_of_unconditional (h : m.Sound c) (hs : m.Settled) (hlane : w.lane = .unconditional)
    (hd : m.store.descriptor? w.array = some d) (hpersistent : d.lifetime.isPersistent = true)
    (hfits : w.offset + w.bytes.length ≤ d.byteLength) (hshows : m.Shows w.array before) :
    Operation.Passage w.array before (w.onto m before) m (.write w) := by
  have hlogs : w.logs m = .ok false := by
    unfold logs
    rw [hlane]
  have hissued : w.issued m = .ok m := issued_of_unlogged hlogs
  have hstored : (w.stored m).Shows w.array (w.onto m before) :=
    ⟨payload?_stored h hd hfits hshows.payload, hshows.unlogged⟩
  refine ⟨hshows, ?_, ?_, ?_⟩
  · intro w' m' hw hm
    cases hw
    rw [hissued] at hm
    cases hm
    exact hshows
  · intro w' m' hw hm
    cases hw
    rw [hissued] at hm
    cases hm
    exact hstored
  · have hexec : (Operation.write w).act.exec m = w.concluded m := by
      show w.act.exec m = _
      rw [exec_act h hs, hissued, ending_of_unlogged hs]
    rw [hexec]
    unfold concluded
    split
    · exact ⟨hstored.payload, hstored.unlogged⟩
    · dsimp only
      split
      · -- Power is lost: the recovery rolls back what the log names, and that is not this array.
        have hp : (w.stored m).store.IsPersistent w.array :=
          ⟨d, (congrFun (Store.descriptor?_write _ _ _ _) w.array).trans hd, hpersistent⟩
        exact hstored.spared ((sound_stored h).spares_recovered hp hstored.unlogged)
      · exact ⟨hstored.payload, hstored.unlogged⟩

end Write

end SmartCard
