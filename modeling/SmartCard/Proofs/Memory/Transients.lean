-- SUMMARY: Transient arrays: what clears them, what else changes their bytes, and that the undo log never names them.
import SmartCard.Proofs.Memory.Arrays
import SmartCard.Proofs.Memory.Budget
import SmartCard.Proofs.Memory.Landing
import SmartCard.Proofs.Memory.Seals
import Mathlib.Data.List.DropRight
import Mathlib.Data.Set.Card

/-!
# Transient arrays

The bytes of a transient array change by writes that succeed, by flips of its bits and by clearing,
and by nothing else (`Operation.change?`). In particular no rollback touches them, since the undo
log keeps bytes of persistent arrays only.
-/

namespace SmartCard

variable {c : Config} {m m' : Memory} {w : Write} {array : ArrayRef} {d : Descriptor}

/-! ## Zeroed arrays -/

namespace Store

variable {s : Store} {ends : Lifetime → Bool}

/-- What is cleared is zero. -/
theorem Sound.payload?_cleared (h : s.Sound c) (hd : s.descriptor? array = some d)
    (hends : (d.lifetime.isTransient && ends d.lifetime) = true) :
    (s.clearTransients ends).payload? array = some (List.replicate d.byteLength 0) := by
  obtain ⟨cell, hfound, rfl⟩ := Table.descriptor?_eq_some_iff.mp hd
  rw [payload?, find?_clearTransients, hfound, Option.map_some, cleared, if_pos hends,
    Option.map_some, Cell.clear_payload, (h.cells hfound).size]

/-- What is not cleared is left alone. -/
theorem find?_of_lasting (hd : s.descriptor? array = some d)
    (hlasts : (d.lifetime.isTransient && ends d.lifetime) = false) :
    (s.clearTransients ends).table.find? array = s.table.find? array := by
  refine (s.resealed_clearTransients ends array).kept ?_
  rintro ⟨d', hd', hends⟩
  rw [hd, Option.some.injEq] at hd'
  rw [← hd', hlasts] at hends
  cases hends

theorem Sound.payload?_made {s' : Store} (h : s.Sound c) {made : ArrayRef}
    (hs : s.allocate d = .ok (made, s')) :
    s'.payload? made = some (List.replicate d.byteLength 0) := by
  obtain ⟨_, _, _, rfl⟩ := h.allocate_eq_ok_iff.mp hs
  rw [payload?, Table.find?_insert, if_pos rfl, Option.map_some, Cell.zeroed_payload]

theorem payload?_of_find? {s s' : Store} (h : s'.table.find? array = s.table.find? array) :
    s'.payload? array = s.payload? array := congrArg (Option.map Cell.payload) h

end Store

namespace Memory

/-- The undo log names no transient array. -/
theorem Sound.not_logs (h : m.Sound c) (ht : m.store.IsTransient array) : ¬m.Logs array := by
  rintro ⟨e, he, rfl⟩
  obtain ⟨d, hd, htransient⟩ := ht
  obtain ⟨d', hd', hpersistent, _⟩ := h.entries he
  rw [hd, Option.some.injEq] at hd'
  rw [← hd', Lifetime.isTransient_iff.mp htransient] at hpersistent
  cases hpersistent

/-- So a rollback leaves transient arrays as they are. -/
theorem Sound.find?_undone (h : m.Sound c) (ht : m.store.IsTransient array) :
    m.undone.table.find? array = m.store.table.find? array :=
  (h.resealed_undone array).kept (h.not_logs ht)

theorem Sound.payload?_wasReset (h : m.Sound c) (hd : m.store.descriptor? array = some d)
    (ht : d.lifetime.isTransient = true) :
    m.wasReset.store.payload? array = some (List.replicate d.byteLength 0) := by
  refine h.restored.sound.payload?_cleared ((congrFun h.descriptor?_undone array).trans hd) ?_
  rw [ht, Bool.and_self]

/-- A loss of power leaves every transient array zero. -/
theorem Sound.payload?_recovered (h : m.Sound c) (hd : m.store.descriptor? array = some d)
    (ht : d.lifetime.isTransient = true) :
    m.recovered.store.payload? array = some (List.replicate d.byteLength 0) :=
  h.payload?_wasReset hd ht

end Memory

/-! ## Changes -/

/-- What may become of the payload of a transient array. -/
inductive Change where
  | made
  | cleared
  | written (offset : Nat) (bytes : List UInt8)
  | flipped (byte : Nat) (mask : UInt8)
  deriving DecidableEq, Repr

namespace Change

/-- Whether a change leaves nothing but zeros. -/
def zeroes : Change → Bool
  | .made | .cleared => true
  | .written .. | .flipped .. => false

/-- The payload after a change. -/
def onto (payload : List UInt8) : Change → List UInt8
  | .made | .cleared => List.replicate payload.length 0
  | .written offset bytes =>
    payload.take offset ++ bytes ++ payload.drop (offset + bytes.length)
  | .flipped byte mask => payload.modify byte (· ^^^ mask)

/-- The changes after the last one that left nothing but zeros. -/
def latest (changes : List Change) : List Change := changes.rtakeWhile fun change => !change.zeroes

/-- The payload of `size` bytes that changes leave, which only the latest ones have a say in. -/
def outcome (size : Nat) (changes : List Change) : List UInt8 :=
  (latest changes).foldl onto (List.replicate size 0)

variable {size : Nat} {changes : List Change} {change : Change}

/-- Nothing before it counts. -/
theorem outcome_of_zeroes (hzeroes : change.zeroes = true) :
    outcome size (changes ++ [change]) = List.replicate size 0 := by
  rw [outcome, latest, List.rtakeWhile_concat_neg _ _ _ (by simp [hzeroes])]
  rfl

/-- Otherwise it is one change more. -/
theorem outcome_of_not_zeroes (hzeroes : change.zeroes = false) :
    outcome size (changes ++ [change]) = onto (outcome size changes) change := by
  rw [outcome, latest, List.rtakeWhile_concat_pos _ _ _ (by simp [hzeroes])]
  exact List.foldl_concat _ _ _ _

theorem outcome_concat (change : Change) (hsize : (outcome size changes).length = size) :
    outcome size (changes ++ [change]) = onto (outcome size changes) change := by
  cases change with
  | made => exact (outcome_of_zeroes rfl).trans (congrArg (List.replicate · 0) hsize.symm)
  | cleared => exact (outcome_of_zeroes rfl).trans (congrArg (List.replicate · 0) hsize.symm)
  | written offset bytes => exact outcome_of_not_zeroes rfl
  | flipped byte mask => exact outcome_of_not_zeroes rfl

end Change

/-- What an operation does to the payload of a transient array, if it does anything to it. -/
def Operation.change? (array : ArrayRef) (m : Memory) (op : Operation) : Option Change :=
  match op, (op.act.exec m).1 with
  | .allocate _, .ok () => if m.store.freeRef.toOption = some array then some .made else none
  | .write w, .ok () => if w.array = array then some (.written w.offset w.bytes) else none
  | .write _, .error e => if e.isPowerLoss then some .cleared else none
  | .flip flipped byte mask, .ok () =>
    if flipped = array then some (.flipped byte mask) else none
  | .reset, .ok () => some .cleared
  | .deselect, .ok () =>
    if (m.store.descriptor? array).map Descriptor.lifetime = some .transientDeselect then
      some .cleared
    else none
  | _, _ => none

/-- What operations do to the payload of a transient array, one after the other. -/
def Operation.history (array : ArrayRef) (trace : List (Memory × Operation)) : List Change :=
  trace.filterMap fun step => step.2.change? array step.1

/-- A payload after the change that an operation makes, if it makes one. -/
def Operation.changed (array : ArrayRef) (m : Memory) (op : Operation) (payload : List UInt8) :
    List UInt8 := (op.change? array m).elim payload (Change.onto payload)

namespace Operation

variable {op : Operation} {payload : List UInt8}

theorem changed_of_none (h : op.change? array m = none) (payload : List UInt8) :
    op.changed array m payload = payload := by
  rw [changed, h]
  rfl

theorem changed_of_some {change : Change} (h : op.change? array m = some change)
    (payload : List UInt8) : op.changed array m payload = change.onto payload := by
  rw [changed, h]
  rfl

theorem change?_write_of_ok (array : ArrayRef) (h : (w.act.exec m).1 = .ok ()) :
    (write w).change? array m =
      if w.array = array then some (.written w.offset w.bytes) else none := by
  unfold change?
  rw [act, h]

theorem change?_write_of_error (array : ArrayRef) {e : Fault} (h : (w.act.exec m).1 = .error e) :
    (write w).change? array m = if e.isPowerLoss then some .cleared else none := by
  unfold change?
  rw [act, h]

theorem change?_reset (h : m.Sound c) : reset.change? array m = some .cleared := by
  unfold change?
  rw [exec_reset h]

theorem change?_deselect (hd : m.store.descriptor? array = some d) :
    deselect.change? array m =
      if d.lifetime = .transientDeselect then some .cleared else none := by
  unfold change?
  rw [exec_deselect, hd]
  simp

theorem change?_flip (m : Memory) (array flipped : ArrayRef) (byte : Nat) (mask : UInt8) :
    (flip flipped byte mask).change? array m =
      match m.store.flipBits flipped byte mask with
      | .ok _ => if flipped = array then some (.flipped byte mask) else none
      | .error _ => none := by
  unfold change?
  rw [exec_flip]
  rcases m.store.flipBits flipped byte mask with _ | _ <;> rfl

/-- Whatever fails without losing power changes nothing. -/
theorem change?_of_failure {e : Fault} (he : (op.act.exec m).1 = .error e)
    (hkept : e.isPowerLoss = false) : op.change? array m = none := by
  unfold change?
  rw [he]
  cases op with
  | write w => exact if_neg (ne_true_of_eq_false hkept)
  | _ => rfl

/-- What is there already is not made anew. -/
theorem change?_allocate_of_old {new : Descriptor} (hd : m.store.descriptor? array = some d) :
    (allocate new).change? array m = none := by
  have hfree : m.store.freeRef.toOption ≠ some array := by
    intro hfree
    rcases hf : m.store.freeRef with e | made
    · rw [hf] at hfree
      cases hfree
    · rw [hf] at hfree
      cases hfree
      rw [Store.freeRef_eq_ok hf] at hd
      cases hd
  unfold change?
  rcases ((allocate new).act.exec m).1 with e | _
  · rfl
  · exact if_neg hfree

/-- What is made is zero, and what is not made yet is not there. -/
theorem change?_allocate_of_new {new : Descriptor} (h : m.Sound c)
    (hnone : m.store.descriptor? array = none)
    (hd : ((allocate new).act.exec m).2.store.descriptor? array = some d) :
    (allocate new).change? array m = some .made ∧
      ((allocate new).act.exec m).2.store.payload? array =
        some (List.replicate d.byteLength 0) := by
  unfold change?
  rw [exec_allocate] at hd ⊢
  rcases hmade : m.store.allocate new with e | ⟨made, s⟩
  · rw [hmade, hnone] at hd
    cases hd
  · rw [hmade] at hd
    dsimp only at hd
    rw [h.store.descriptor?_allocate hmade] at hd
    split at hd
    next heq =>
      subst heq
      cases hd
      refine ⟨if_pos ?_, h.store.payload?_made hmade⟩
      rw [Store.freeRef_of_allocate hmade]
      rfl
    next =>
      rw [hnone] at hd
      cases hd

end Operation

/-! ## Writes -/

namespace Write

variable {payload : List UInt8}

/-- What the store makes of a transient array if it takes a write. -/
theorem payload?_stored_of_ok (hanswer : w.answer m = .ok ())
    (hpayload : m.store.payload? array = some payload) :
    (w.stored m).store.payload? array =
      some (if w.array = array then Change.onto payload (.written w.offset w.bytes)
        else payload) := by
  have hwritten := w.written m
  rw [hanswer] at hwritten
  generalize (w.stored m).store = s at hwritten ⊢
  cases hwritten with
  | @whole s' hput _ =>
    split
    next heq =>
      subst heq
      have hs' := Store.payload?_restoreBytes hput hpayload
      exact hs'
    next hne =>
      have hkept := (Store.resealed_restoreBytes hput array).kept hne
      have hs' := (Store.payload?_of_find? hkept).trans hpayload
      exact hs'

/-- What the store makes of it if it refuses the write. -/
theorem payload?_stored_of_refused {e : Fault} (hanswer : w.answer m = .error e)
    (hkept : e.isPowerLoss = false) :
    (w.stored m).store.payload? array = m.store.payload? array := by
  have hwritten := w.written m
  rw [hanswer] at hwritten
  generalize (w.stored m).store = s at hwritten ⊢
  cases hwritten with
  | torn => cases hkept
  | refused => rfl

/-- A write changes a transient array if it is done and the array is its destination. If it fails it
does so only by a loss of power. -/
theorem payload?_act (h : m.Sound c) (hs : m.Settled) (hd : m.store.descriptor? array = some d)
    (ht : d.lifetime.isTransient = true) (hpayload : m.store.payload? array = some payload)
    (hsize : payload.length = d.byteLength) :
    (w.act.exec m).2.store.payload? array =
      some ((Operation.write w).changed array m payload) := by
  rcases hissued : w.issued m with e | m'
  · have hends : w.act.exec m = (.error e, if e.isBufferFull then m.rolledBack else m) := by
      rw [exec_act h hs, hissued, ending]
    have hchange : (Operation.write w).change? array m = none := by
      rw [Operation.change?_write_of_error array (congrArg Prod.fst hends),
        isPowerLoss_of_issued hissued]
      rfl
    rw [Operation.changed_of_none hchange, hends, ← hpayload]
    dsimp only
    -- If the buffer is full the transaction is rolled back, and its log names persistent arrays only.
    split
    · exact Store.payload?_of_find? (h.find?_undone ⟨d, hd, ht⟩)
    · rfl
  · have hsound := sound_stored (w := w) (sound_issued h hissued)
    have hpayload' : m'.store.payload? array = some payload := store_issued hissued ▸ hpayload
    have hends : w.act.exec m = ((w.concluded m').1, (w.concluded m').2.settled) := by
      rw [exec_act h hs, hissued, ending]
    rcases hanswer : w.answer m' with e | _
    · rcases hloss : e.isPowerLoss with _ | _
      · rw [concluded_of_refused hanswer hloss] at hends
        have hchange := Operation.change?_write_of_error array (congrArg Prod.fst hends)
        rw [hloss] at hchange
        rw [Operation.changed_of_none hchange, hends, store_settled,
          payload?_stored_of_refused hanswer hloss, hpayload']
      · rw [concluded_of_lost hanswer hloss] at hends
        have hchange := Operation.change?_write_of_error array (congrArg Prod.fst hends)
        have hd' : (w.stored m').store.descriptor? array = some d := by
          rw [← store_issued hissued] at hd
          exact (congrFun (Store.descriptor?_write _ _ _ _) array).trans hd
        rw [hloss] at hchange
        rw [Operation.changed_of_some hchange, hends, store_settled,
          hsound.payload?_recovered hd' ht, ← hsize]
        rfl
    · rw [concluded_of_ok hanswer] at hends
      have hchange := Operation.change?_write_of_ok array (congrArg Prod.fst hends)
      rw [hends, store_settled, payload?_stored_of_ok hanswer hpayload']
      split
      next heq =>
        rw [if_pos heq] at hchange
        rw [Operation.changed_of_some hchange]
      next hne =>
        rw [if_neg hne] at hchange
        rw [Operation.changed_of_none hchange]

end Write

/-! ## Operations -/

namespace Store

/-- A new array is another one than those there are. -/
theorem Sound.payload?_allocate {s s' : Store} (h : s.Sound c) {new : Descriptor} {made : ArrayRef}
    (hs : s.allocate new = .ok (made, s')) (hd : s.descriptor? array = some d) :
    s'.payload? array = s.payload? array := by
  refine payload?_of_find? ((h.resealed_allocate hs array).kept ?_)
  rintro rfl
  rw [freeRef_eq_ok (freeRef_of_allocate hs)] at hd
  cases hd

theorem payload?_flipBits {s s' : Store} {flipped : ArrayRef} {byte : Nat} {mask : UInt8}
    (hs : s.flipBits flipped byte mask = .ok s') {payload : List UInt8}
    (hpayload : s.payload? array = some payload) :
    s'.payload? array =
      some (if flipped = array then Change.onto payload (.flipped byte mask) else payload) := by
  split
  next heq =>
    subst heq
    obtain ⟨cell, cell', hcell, hflip, rfl⟩ := flipBits_eq_ok_iff.mp hs
    obtain ⟨_, rfl⟩ := Cell.flip?_eq_some_iff.mp hflip
    have hfound := (cell_eq_ok_iff.mp hcell).2
    rw [payload?, hfound, Option.map_some, Option.some.injEq] at hpayload
    rw [payload?, Table.find?_set, if_pos rfl, hfound, ← hpayload]
    rfl
  next hne =>
    exact (payload?_of_find? ((resealed_flipBits hs hne).kept id)).trans hpayload

end Store

namespace Operation

variable {op : Operation} {payload : List UInt8}

/-- An operation makes of the payload of a transient array what its change makes of it. -/
theorem payload?_act (op : Operation) (h : m.Sound c) (hs : m.Settled)
    (hd : m.store.descriptor? array = some d) (ht : d.lifetime.isTransient = true)
    (hpayload : m.store.payload? array = some payload) (hsize : payload.length = d.byteLength) :
    (op.act.exec m).2.store.payload? array = some (op.changed array m payload) := by
  cases op with
  | begin =>
    rw [changed_of_none rfl, ← hpayload, act, Memory.exec_begin]
    split <;> rfl
  | commit =>
    rw [changed_of_none rfl, ← hpayload, act, Memory.exec_commit]
    split <;> rfl
  | abort =>
    rw [changed_of_none rfl, ← hpayload, act, h.exec_abort]
    split
    · rfl
    · exact Store.payload?_of_find? (h.find?_undone ⟨d, hd, ht⟩)
  | write w => exact Write.payload?_act h hs hd ht hpayload hsize
  | allocate new =>
    have hchange : (allocate new).change? array m = none := change?_allocate_of_old hd
    rw [changed_of_none hchange, ← hpayload, exec_allocate]
    rcases hmade : m.store.allocate new with e | ⟨made, s⟩
    · rfl
    · exact h.store.payload?_allocate hmade hd
  | reset =>
    rw [changed_of_some (change?_reset h), exec_reset h, h.payload?_wasReset hd ht, ← hsize]
    rfl
  | deselect =>
    have hchange := change?_deselect hd
    rw [exec_deselect]
    dsimp only
    split at hchange
    next hends =>
      rw [changed_of_some hchange, h.store.payload?_cleared hd (by rw [hends]; rfl), ← hsize]
      rfl
    next hlasts =>
      rw [changed_of_none hchange, ← hpayload]
      refine Store.payload?_of_find? (Store.find?_of_lasting hd ?_)
      simp [hlasts]
  | arm budget => exact hpayload
  | flip flipped byte mask =>
    have hchange := change?_flip m array flipped byte mask
    rw [exec_flip]
    rcases hflip : m.store.flipBits flipped byte mask with e | s
    · rw [hflip] at hchange
      rw [changed_of_none hchange]
      exact hpayload
    · rw [hflip] at hchange
      refine (Store.payload?_flipBits hflip hpayload).trans ?_
      split
      next heq =>
        dsimp only at hchange
        rw [if_pos heq] at hchange
        rw [changed_of_some hchange]
      next hne =>
        dsimp only at hchange
        rw [if_neg hne] at hchange
        rw [changed_of_none hchange]

/-- A transient array is cleared by a reset, by a loss of power, and by deselection if it lasts until
then. -/
theorem change?_eq_cleared_iff (h : m.Sound c) (hd : m.store.descriptor? array = some d) :
    op.change? array m = some .cleared ↔
      op = .reset ∨ (op = .deselect ∧ d.lifetime = .transientDeselect) ∨
        failsBy Fault.isPowerLoss (op.act.exec m).1 = true := by
  have hspared : (∀ w, op ≠ .write w) → (∀ budget, op ≠ .arm budget) →
      failsBy Fault.isPowerLoss (op.act.exec m).1 = false :=
    fun hwrite harm => (tear_act op h hwrite harm).2
  cases op with
  | write w =>
    rcases hends : (w.act.exec m).1 with e | _
    · rw [change?_write_of_error array hends, act, hends, failsBy]
      simp
    · rw [change?_write_of_ok array hends, act, hends, failsBy]
      split <;> simp
  | reset => simp [change?_reset h]
  | deselect =>
    rw [change?_deselect hd, exec_deselect, failsBy]
    simp
  | begin => simp [change?, hspared]
  | commit => simp [change?, hspared]
  | abort => simp [change?, hspared]
  | arm budget => simp [change?, exec_arm]
  | allocate new => simp [change?_allocate_of_old hd, hspared]
  | flip flipped byte mask =>
    have hflip : (flip flipped byte mask).change? array m ≠ some .cleared := by
      rw [change?_flip]
      split
      · split <;> simp
      · simp
    simp [hflip, hspared]

end Operation

/-! ## The undo log -/

namespace Write

/-- No write to a transient array is logged. -/
theorem issued_of_transient (h : m.Sound c) (ht : m.store.IsTransient w.array) :
    w.issued m = .ok m := by
  obtain ⟨d, hd, htransient⟩ := ht
  have hpersistent := Lifetime.isTransient_iff.mp htransient
  have hlogs : w.logs m = .ok false := by
    unfold logs
    rw [h.store.descriptor_iff.mpr hd, Except.map, Except.map, hpersistent]
    cases w.lane <;> rfl
  exact issued_of_unlogged hlogs

/-- So the transaction is the same after it, unless power is lost. -/
theorem transaction_act_of_transient (h : m.Sound c) (hs : m.Settled)
    (ht : m.store.IsTransient w.array)
    (hkept : failsBy Fault.isPowerLoss (w.act.exec m).1 = false) :
    (w.act.exec m).2.transaction = m.transaction := by
  rw [exec_act h hs, issued_of_transient h ht, ending_of_unlogged hs] at hkept ⊢
  rcases hanswer : w.answer m with e | _
  · rcases hloss : e.isPowerLoss with _ | _
    · rw [concluded_of_refused hanswer hloss]
      rfl
    · rw [concluded_of_lost hanswer hloss, failsBy, hloss] at hkept
      cases hkept
  · rw [concluded_of_ok hanswer]
    rfl

end Write

/-! ## Counting -/

/-- Counting entries is counting arrays, since no two entries are for the same array. -/
theorem Table.countP_entries (t : Table) (p : Descriptor → Bool) :
    t.entries.countP (fun entry => p entry.2.descriptor) =
      {array | ∃ d, t.descriptor? array = some d ∧ p d = true}.ncard := by
  have hnodup : ((t.entries.filter fun entry => p entry.2.descriptor).map Prod.fst).Nodup := by
    refine List.pairwise_map.mpr ((t.ascending.filter _).imp fun hlt heq => ?_)
    rw [heq] at hlt
    exact UInt32.lt_irrefl _ hlt
  have harrays : {array | ∃ d, t.descriptor? array = some d ∧ p d = true} =
      ((t.entries.filter fun entry => p entry.2.descriptor).map Prod.fst).toFinset := by
    ext array
    rw [Set.mem_ofPred_eq, Finset.mem_coe, List.mem_toFinset, List.mem_map]
    constructor
    · rintro ⟨d, hd, hp⟩
      obtain ⟨cell, hfound, rfl⟩ := descriptor?_eq_some_iff.mp hd
      have hmem := (lookup_eq_some_iff_mem t.ascending).mp hfound
      exact ⟨(array, cell), List.mem_filter.mpr ⟨hmem, hp⟩, rfl⟩
    · rintro ⟨⟨_, cell⟩, hmem, rfl⟩
      obtain ⟨hmem, hp⟩ := List.mem_filter.mp hmem
      have hfound := (lookup_eq_some_iff_mem t.ascending).mpr hmem
      exact ⟨_, descriptor?_eq_some_iff.mpr ⟨cell, hfound, rfl⟩, hp⟩
  rw [harrays, Set.ncard_coe_finset, List.toFinset_card_of_nodup hnodup, List.length_map,
    ← List.countP_eq_length_filter]

/-- The arrays that are counted are those that are cleared. -/
theorem Store.countTransients_eq (s : Store) (ends : Lifetime → Bool) :
    s.countTransients ends =
      {array | ∃ d, s.descriptor? array = some d ∧
        (d.lifetime.isTransient && ends d.lifetime) = true}.ncard :=
  s.table.countP_entries fun d => d.lifetime.isTransient && ends d.lifetime

/-! ## Runs -/

/-- If an array is there and transient, its payload is what the changes made of it. -/
def Memory.Tracks (array : ArrayRef) (changes : List Change) (m : Memory) : Prop :=
  ∀ d, m.store.descriptor? array = some d → d.lifetime.isTransient = true →
    m.store.payload? array = some (Change.outcome d.byteLength changes)

namespace Operation

variable {op : Operation} {changes : List Change}

theorem history_cons (step : Memory × Operation) (trace : List (Memory × Operation)) :
    history array (step :: trace) =
      (step.2.change? array step.1).toList ++ history array trace := by
  rw [history, List.filterMap_cons]
  rcases step.2.change? array step.1 with _ | change <;> rfl

/-- One operation more, and what it changes. -/
theorem tracks_act (h : m.Sound c) (hs : m.Settled) (htracks : m.Tracks array changes) :
    (op.act.exec m).2.Tracks array (changes ++ (op.change? array m).toList) := by
  intro d hd ht
  rcases hold : m.store.descriptor? array with _ | old
  · by_cases hallocates : ∃ new, op = .allocate new
    · obtain ⟨new, rfl⟩ := hallocates
      obtain ⟨hchange, hpayload⟩ := change?_allocate_of_new h hold hd
      rw [hpayload, hchange]
      exact congrArg some (Change.outcome_of_zeroes rfl).symm
    · rw [descriptor?_act h hs fun new heq => hallocates ⟨new, heq⟩, hold] at hd
      cases hd
  · have hsame := keeps_act h hs op array old hold
    rw [hd, Option.some.injEq] at hsame
    subst hsame
    have hpayload := htracks d hold ht
    have hsize : (Change.outcome d.byteLength changes).length = d.byteLength := by
      obtain ⟨payload, hpayload', hlength⟩ := h.store.payload?_isSome hold
      rw [hpayload, Option.some.injEq] at hpayload'
      rw [hpayload', hlength]
    rw [payload?_act op h hs hold ht hpayload hsize, changed]
    rcases op.change? array m with _ | change
    · rw [Option.toList_none, List.append_nil]
      rfl
    · exact congrArg some (Change.outcome_concat change hsize).symm

/-- Operations that change nothing of a transient array. -/
theorem Steps.payload?_kept {trace : List (Memory × Operation)} (hsteps : Steps m trace m')
    (h : m.Sound c) (hs : m.Settled) (hd : m.store.descriptor? array = some d)
    (ht : d.lifetime.isTransient = true)
    (hkept : ∀ step ∈ trace, step.2.change? array step.1 = none) :
    m'.store.payload? array = m.store.payload? array := by
  induction hsteps with
  | nil => rfl
  | @cons m m' op trace _ ih =>
    obtain ⟨payload, hpayload, hsize⟩ := h.store.payload?_isSome hd
    have hfirst := payload?_act op h hs hd ht hpayload hsize
    rw [changed_of_none (hkept (m, op) (.head _)), ← hpayload] at hfirst
    rw [← hfirst]
    exact ih (sound_act h hs op) (settled_act h hs op) (keeps_act h hs op array d hd)
      fun step hstep => hkept step (.tail _ hstep)

/-- Several operations. -/
theorem Steps.tracks {trace : List (Memory × Operation)} (hsteps : Steps m trace m')
    (h : m.Sound c) (hs : m.Settled) (htracks : m.Tracks array changes) :
    m'.Tracks array (changes ++ history array trace) := by
  induction hsteps generalizing changes with
  | nil => exact (List.append_nil changes).symm ▸ htracks
  | @cons m m' op trace _ ih =>
    rw [history_cons, ← List.append_assoc]
    exact ih (sound_act h hs op) (settled_act h hs op) (tracks_act h hs htracks)

end Operation

end SmartCard
