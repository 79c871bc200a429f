-- SUMMARY: What a memory does in a transaction it does as well without one, as long as no tear is armed and the log has room.
import SmartCard.Proofs.Alike
import SmartCard.Proofs.Memory.Capacity
import SmartCard.Range.Search
import SmartCard.Template.TryCounter
import SmartCard.Integrity
import SmartCard.Packing

/-!
# With and without a transaction

A memory with an open transaction is set beside the same store without one (`Memory.Alongside`).
What the lanes do differs: in the transaction a write joins the log, outside it is logged for itself
or not at all. But it ends alike, since a write that fits into what is left of the commit buffer
fits into the whole of it.
-/

namespace SmartCard

variable {c : Config} {m m' m₁ m₂ : Memory} {w : Write} {α : Type}

theorem Memory.settled_of_explicit (h : m.transaction.state = .explicit) : m.Settled := by
  intro himplicit
  rw [h] at himplicit
  cases himplicit

/-- A memory in an explicit transaction, and the same store without a transaction. No tear is armed.
-/
structure Memory.Alongside (c : Config) (m₁ m₂ : Memory) : Prop where
  sound : m₁.Sound c
  state : m₁.transaction.state = .explicit
  room : m₁.transaction.log.used ≤ m₁.transaction.log.max
  untorn : m₁.store.tear = none
  eq : m₂ = ⟨m₁.store, .idle c⟩

namespace Memory.Alongside

variable (h : Memory.Alongside c m₁ m₂)

include h

theorem isIdle_eq : m₁.transaction.isIdle = false := by
  rw [Transaction.isIdle, h.state]
  rfl

theorem settled : m₁.Settled := settled_of_explicit h.state

theorem store_eq : m₂.store = m₁.store := by rw [h.eq]

theorem isIdle_outside : m₂.transaction.isIdle = true := by
  rw [h.eq]
  rfl

theorem sound_outside : m₂.Sound c := by
  rw [h.eq]
  exact .ofStore h.sound.store

theorem settled_outside : m₂.Settled := Memory.settled_of_idle h.isIdle_outside

/-- The same change of the store on both sides. -/
theorem withStore {s : Store} (hs : Memory.Sound c { m₁ with store := s }) (ht : s.tear = none) :
    Memory.Alongside c { m₁ with store := s } { m₂ with store := s } :=
  ⟨hs, h.state, h.room, ht, by rw [h.eq]⟩

end Memory.Alongside

/-! ## Writes -/

namespace Store

variable {s : Store}

/-- Without a tear a write is an overwrite. -/
theorem exec_write_of_untorn (ht : s.tear = none) (array : ArrayRef) (offset : Nat)
    (bytes : List UInt8) : (write array offset bytes).exec s = (put array offset bytes).exec s := by
  simp only [write, Act.exec_bind, Act.exec_read, ht]

/-- Bytes that cannot be read cannot be overwritten either, and for the same reason. -/
theorem restoreBytes_of_read {array : ArrayRef} {offset : Nat} {bytes : List UInt8} {e : Fault}
    (hread : s.read array offset bytes.length = .error e) :
    s.restoreBytes array offset bytes = .error e := by
  unfold read at hread
  unfold restoreBytes
  rcases hcell : s.cell .store array with e' | cell
  · rw [hcell] at hread
    cases hread
    rfl
  · rw [hcell] at hread
    simp only [Except.bind, Cell.read, Cell.write] at hread ⊢
    split at hread
    · cases hread
    next hrange =>
      cases hread
      rw [if_neg hrange]
      rfl

end Store

namespace Write

theorem concluded_of_untorn (ht : m.store.tear = none) :
    w.concluded m = match m.store.restoreBytes w.array w.offset w.bytes with
      | .ok s => (.ok (), { m with store := s })
      | .error e => (.error e, m) := by
  unfold concluded answer stored
  rw [Store.exec_write_of_untorn ht, Store.exec_put]
  rcases hs : m.store.restoreBytes w.array w.offset w.bytes with e | s
  · simp only [(Store.restoreBytes_isRefusal hs).1, Bool.false_eq_true, if_false]
  · rfl

/-- Inside, the transaction stays open around a write. -/
theorem settled_inside (h : Memory.Alongside c m₁ m₂) {m₁' : Memory}
    (h₁ : w.issued m₁ = .ok m₁') (s : Store) :
    Memory.settled { m₁' with store := s } = { m₁' with store := s } := by
  have hopen : Memory.Settled { m₁' with store := s } :=
    Memory.settled_of_explicit ((state_issued h.isIdle_eq h₁).trans h.state)
  exact settled_eq hopen

/-- Outside, an implicit transaction around a write is committed. -/
theorem settled_outside (h : Memory.Alongside c m₁ m₂) {m₂' : Memory}
    (h₂ : w.issued m₂ = .ok m₂') (s : Store) :
    Memory.settled { m₂' with store := s } = ⟨s, .idle c⟩ := by
  rcases issued_cases h₂ with ⟨_, rfl⟩ | ⟨_, hlogged⟩
  · have hclosed : Memory.Settled { m₂' with store := s } := h.settled_outside
    rw [settled_eq hclosed, h.eq]
  · have himplicit := implicit_logged h.isIdle_outside hlogged
    have hclose := (sound_issued h.sound_outside h₂).close_eq
    unfold Memory.settled
    dsimp only
    rw [himplicit, hclose]
    rfl

theorem room_issued (h : Memory.Alongside c m₁ m₂) {m₁' : Memory} (h₁ : w.issued m₁ = .ok m₁') :
    m₁'.transaction.log.used ≤ m₁'.transaction.log.max := by
  rcases issued_cases h₁ with ⟨_, rfl⟩ | ⟨_, hlogged⟩
  · exact h.room
  · obtain ⟨before, _, _, hlog⟩ := log_logged hlogged
    rw [hlog]
    exact UndoLog.charged_le _ _

/-- Writes that are issued on both sides end alike. -/
theorem agree_issued (h : Memory.Alongside c m₁ m₂) {m₁' m₂' : Memory}
    (h₁ : w.issued m₁ = .ok m₁') (h₂ : w.issued m₂ = .ok m₂') :
    Act.Agree (Memory.Alongside c) (w.ending m₁ (w.issued m₁)) (w.ending m₂ (w.issued m₂)) := by
  have hstore : m₂'.store = m₁'.store :=
    (store_issued h₂).trans (h.store_eq.trans (store_issued h₁).symm)
  have huntorn : m₁'.store.tear = none := by
    rw [store_issued h₁]
    exact h.untorn
  -- Any store in which both end takes the memories to the same relation.
  have hend : ∀ {s : Store}, Memory.Sound c { m₁' with store := s } → s.tear = none →
      Memory.Alongside c (Memory.settled { m₁' with store := s })
        (Memory.settled { m₂' with store := s }) := by
    intro s hsound ht
    have hroom : m₁'.transaction.log.used ≤ m₁'.transaction.log.max := room_issued h h₁
    rw [settled_inside h h₁, settled_outside h h₂]
    exact ⟨hsound, (state_issued h.isIdle_eq h₁).trans h.state, hroom, ht, rfl⟩
  have hsound := sound_concluded (w := w) (sound_issued h.sound h₁)
  rw [h₁, h₂, ending, ending]
  rw [concluded_of_untorn huntorn] at hsound ⊢
  rw [concluded_of_untorn (hstore ▸ huntorn), hstore]
  rcases hs : m₁'.store.restoreBytes w.array w.offset w.bytes with e | s
  · have hsame : Memory.Alongside c m₁'.settled (Memory.settled { m₂' with store := m₁'.store }) :=
      hend (sound_issued h.sound h₁) huntorn
    rw [← hstore] at hsame
    exact .same hsame
  · rw [hs] at hsound
    exact .same (hend hsound ((Store.tear_restoreBytes hs).trans huntorn))

/-- Outside a transaction a write is logged only if it is inside, too. -/
theorem logs_outside (h : Memory.Alongside c m₁ m₂) :
    (∃ e, w.logs m₁ = .error e ∧ w.logs m₂ = .error e) ∨
    (w.logs m₁ = .ok false ∧ w.logs m₂ = .ok false) ∨
    (w.logs m₁ = .ok true ∧ ∃ b, w.logs m₂ = .ok b) := by
  unfold logs
  rw [h.store_eq, h.isIdle_eq, h.isIdle_outside]
  rcases w.lane with _ | _ | _ | _
  case direct => exact .inr (.inl ⟨rfl, rfl⟩)
  case unconditional => exact .inr (.inl ⟨rfl, rfl⟩)
  case atomic =>
    rcases m₁.store.descriptor .store w.array with e | d
    · exact .inl ⟨e, rfl, rfl⟩
    · dsimp only [Except.map]
      rcases d.lifetime.isPersistent with _ | _
      · exact .inr (.inl ⟨rfl, rfl⟩)
      · exact .inr (.inr ⟨rfl, _, rfl⟩)
  case participating =>
    rcases m₁.store.descriptor .store w.array with e | d
    · exact .inl ⟨e, rfl, rfl⟩
    · dsimp only [Except.map]
      rcases d.lifetime.isPersistent with _ | _
      · exact .inr (.inl ⟨rfl, rfl⟩)
      · exact .inr (.inr ⟨rfl, _, rfl⟩)

/-- What fits into the log of the transaction fits into an empty log. -/
theorem logged_outside (h : Memory.Alongside c m₁ m₂) {m₁' : Memory} (h₁ : w.logged m₁ = .ok m₁') :
    ∃ m₂', w.logged m₂ = .ok m₂' := by
  obtain ⟨before, t, hread, hlog, _⟩ := logged_eq_ok_iff.mp h₁
  have hfits : m₁.transaction.opened.log.fits before.length = true :=
    (logBefore?_eq_ok_iff.mp hlog).1
  rw [Transaction.log_opened, UndoLog.fits_iff h.room, h.sound.cost_eq, h.sound.max_eq] at hfits
  have hfits₂ : m₂.transaction.log.fits before.length = true := by
    have hempty : m₂.transaction.log.used = 0 := by rw [h.eq]; rfl
    have hzero : m₂.transaction.log.used.toNat = 0 := by rw [hempty]; rfl
    have hle : m₂.transaction.log.used ≤ m₂.transaction.log.max := by
      rw [hempty]
      exact UInt32.zero_le
    rw [UndoLog.fits_iff hle, h.sound_outside.cost_eq, h.sound_outside.max_eq, hzero]
    omega
  refine ⟨_, logged_eq_ok_iff.mpr ⟨before, _, ?_, logBefore?_eq_ok_iff.mpr ⟨?_, rfl⟩, rfl⟩⟩
  · rw [h.store_eq]
    exact hread
  · rw [Transaction.log_opened]
    exact hfits₂

/-- What is logged in the transaction is issued outside, logged or not. -/
theorem issued_outside (h : Memory.Alongside c m₁ m₂) {m₁' : Memory} (h₁ : w.logged m₁ = .ok m₁')
    {b : Bool} (h₂ : w.logs m₂ = .ok b) : ∃ m₂', w.issued m₂ = .ok m₂' := by
  cases b with
  | true =>
    rw [issued_of_logged h₂]
    exact logged_outside h h₁
  | false => exact ⟨m₂, issued_of_unlogged h₂⟩

/-- A write whose before-image cannot be read changes nothing, logged or not. -/
theorem ending_of_unreadable (hs : m.Settled) (ht : m.store.tear = none) {e : Fault}
    (hread : m.store.read w.array w.offset w.bytes.length = .error e) {b : Bool}
    (hlogs : w.logs m = .ok b) : w.ending m (w.issued m) = (.error e, m) := by
  cases b with
  | true =>
    have hlogged : w.logged m = .error e := by
      unfold logged
      rw [hread]
      rfl
    rw [issued_of_logged hlogs, hlogged, ending_of_refusal (Store.read_isRefusal hread)]
  | false =>
    rw [issued_of_unlogged hlogs, ending_of_unlogged hs, concluded_of_untorn ht,
      Store.restoreBytes_of_read hread]

/-- Bytes that can be read fail to be logged only if there is no room. -/
theorem isBufferFull_of_logged {before : List UInt8}
    (hread : m.store.read w.array w.offset w.bytes.length = .ok before) {e : Fault}
    (he : w.logged m = .error e) : e.isBufferFull = true := by
  rw [logged_of_read hread] at he
  rcases hlog : m.transaction.opened.logBefore? ⟨w.array, w.offset, before⟩ with e' | t
  · rw [hlog] at he
    cases he
    exact logBefore?_isBufferFull hlog
  · rw [hlog] at he
    cases he

/-- Writes end alike with and without a transaction, whatever their lane. -/
theorem alike_act (w : Write) : w.act.Alike (Memory.Alongside c) := by
  intro m₁ m₂ h
  rw [exec_act h.sound h.settled, exec_act h.sound_outside h.settled_outside]
  rcases logs_outside h (w := w) with ⟨e, h₁, h₂⟩ | ⟨h₁, h₂⟩ | ⟨h₁, b, h₂⟩
  · have hrefusal := logs_isRefusal h₁
    rw [issued_of_refusal h₁, issued_of_refusal h₂, ending_of_refusal hrefusal,
      ending_of_refusal hrefusal]
    exact .same h
  · exact agree_issued h (issued_of_unlogged h₁) (issued_of_unlogged h₂)
  · rcases hread : m₁.store.read w.array w.offset w.bytes.length with e | before
    · rw [ending_of_unreadable h.settled h.untorn hread h₁,
        ending_of_unreadable h.settled_outside (h.store_eq ▸ h.untorn) (h.store_eq ▸ hread) h₂]
      exact .same h
    · rcases hlogged : w.logged m₁ with e | m₁'
      · rw [issued_of_logged h₁, hlogged]
        exact .full (isBufferFull_of_logged hread hlogged)
      · obtain ⟨m₂', hissued⟩ := issued_outside h hlogged h₂
        exact agree_issued h ((issued_of_logged h₁).trans hlogged) hissued

end Write

/-! ## Acts on the store alone -/

namespace Store

variable {s s' : Store}

theorem Sound.tear_allocate (h : s.Sound c) {d : Descriptor} {array : ArrayRef}
    (hs : s.allocate d = .ok (array, s')) : s'.tear = s.tear := by
  obtain ⟨_, _, _, rfl⟩ := h.allocate_eq_ok_iff.mp hs
  rfl

theorem tear_flipBits {array : ArrayRef} {byte : Nat} {mask : UInt8}
    (hs : s.flipBits array byte mask = .ok s') : s'.tear = s.tear := by
  obtain ⟨_, _, _, _, rfl⟩ := flipBits_eq_ok_iff.mp hs
  rfl

end Store

namespace Memory

/-- A query that never looks at the transaction. -/
theorem alike_query {f : Memory → Except Fault α} (hf : ∀ m t, f m = f ⟨m.store, t⟩) :
    (Act.query f).Alike (Alongside c) := by
  refine .query fun m₁ m₂ h => ?_
  rw [h.eq]
  exact hf m₁ _

/-- An act on the store that leaves the tear as it is. -/
theorem alike_of_exec {x : Act Memory α} {f : Store → Except Fault α × Store}
    (hexec : ∀ m, x.exec m = ((f m.store).1, { m with store := (f m.store).2 }))
    (hsound : ∀ m : Memory, m.Sound c → m.Settled → (x.exec m).2.Sound c)
    (htear : ∀ s : Store, s.Sound c → (f s).2.tear = s.tear) : x.Alike (Alongside c) := by
  intro m₁ m₂ h
  have hs := hsound m₁ h.sound h.settled
  rw [hexec] at hs
  rw [hexec, hexec, h.store_eq]
  exact .same (h.withStore hs ((htear m₁.store h.sound.store).trans h.untorn))

theorem alike_allocate (d : Descriptor) : (allocate d).Alike (Alongside c) := by
  refine alike_of_exec (fun m => exec_onStore _ m) (fun m h hs => ?_) (fun s h => ?_)
  · have hsound := Operation.sound_act h hs (.allocate d)
    rw [Operation.act, Act.exec_map] at hsound
    exact hsound
  · rw [Act.exec_step]
    rcases hd : s.allocate d with _ | ⟨_, _⟩
    · rfl
    · exact h.tear_allocate hd

theorem alike_makePersistent (kind : Kind) (length : Int16) :
    (makePersistent kind length).Alike (Alongside c) :=
  .bind (alike_query fun _ _ => rfl) fun _ => alike_allocate _

theorem alike_makeTransient (kind : Kind) (length : Int16) (event : UInt8) :
    (makeTransient kind length event).Alike (Alongside c) := by
  unfold makeTransient
  split
  · exact .fail _
  · exact .ite (.bind (alike_query fun _ _ => rfl) fun _ => alike_allocate _) (.fail _)

theorem alike_deselect : deselect.Alike (Alongside c) := by
  let ends : Lifetime → Bool := (· == .transientDeselect)
  refine alike_of_exec (f := fun s => (.ok (s.countTransients ends), s.clearTransients ends))
    (exec_clearTransients ends) (fun m h hs => ?_) fun _ _ => rfl
  have hsound := Operation.sound_act h hs .deselect
  rw [Operation.act, Act.exec_map] at hsound
  exact hsound

theorem alike_flip (array : ArrayRef) (byte : Nat) (mask : UInt8) :
    (Operation.flip array byte mask).act.Alike (Alongside c) := by
  refine alike_of_exec (fun m => exec_onStore _ m) (fun m h hs => Operation.sound_act h hs _)
    (fun s _ => ?_)
  rw [Act.exec_step]
  rcases hf : s.flipBits array byte mask with _ | _
  · rfl
  · exact Store.tear_flipBits hf

/-! ## Acts that write -/

theorem alike_writeAtomic (array : ArrayRef) (offset : Nat) (bytes : List UInt8) :
    (writeAtomic array offset bytes).Alike (Alongside c) :=
  Write.alike_act ⟨.atomic, array, offset, bytes⟩

theorem alike_writeParticipating (array : ArrayRef) (offset : Nat) (bytes : List UInt8) :
    (writeParticipating array offset bytes).Alike (Alongside c) :=
  Write.alike_act ⟨.participating, array, offset, bytes⟩

theorem alike_writeDirect (array : ArrayRef) (offset : Nat) (bytes : List UInt8) :
    (writeDirect array offset bytes).Alike (Alongside c) :=
  Write.alike_act ⟨.direct, array, offset, bytes⟩

theorem alike_writeUnconditional (array : ArrayRef) (offset : Nat) (bytes : List UInt8) :
    (writeUnconditional array offset bytes).Alike (Alongside c) :=
  Write.alike_act ⟨.unconditional, array, offset, bytes⟩

theorem alike_setElement (array : ArrayRef) (index : Int16) (value : Int32) :
    (setElement array index value).Alike (Alongside c) :=
  .bind (alike_query fun _ _ => rfl) fun _ => alike_writeParticipating _ _ _

theorem alike_loadElements (array : ArrayRef) (values : List Int32) :
    (loadElements array values).Alike (Alongside c) :=
  .ite (.fail _) <| .bind (alike_query fun _ _ => rfl) fun _ =>
    .ite (.pure _) (alike_writeParticipating _ _ _)

end Memory

open Memory

theorem Packing.alike_writeWord (array : ArrayRef) (offset : Int16) (word : UInt32) (width : Nat) :
    (writeWord array offset word width).Alike (Alongside c) :=
  .bind (alike_query fun _ _ => rfl) fun _ =>
    .bind (alike_writeParticipating _ _ _) fun _ => .pure _

namespace Integrity

theorem alike_make (supported : Bool) (kind : Kind) (memoryType : UInt8) (length : Int16) :
    (make supported kind memoryType length).Alike (Alongside c) :=
  .bind (alike_query fun _ _ => rfl) fun _ =>
    .bind (alike_allocate _) fun _ => .bind (.note _) fun _ => .pure _

theorem alike_check (array : ArrayRef) : (check array).Alike (Alongside c) :=
  .bind (alike_query fun _ _ => rfl) fun _ =>
    .ite (.pure _) (.bind (.note _) fun _ => .fail _)

theorem alike_clear (array : ArrayRef) : (clear array).Alike (Alongside c) :=
  .bind (alike_query fun _ _ => rfl) fun _ => .ite (.pure _) (alike_writeAtomic _ _ _)

end Integrity

namespace Range

theorem alike_reported (operation : RangeOperation) {x : Act Memory (α × Nat)}
    (hx : x.Alike (Alongside c)) : (reported operation x).Alike (Alongside c) :=
  .bind (.onFault hx fun _ _ => rfl) fun _ => .bind (.emit _) fun _ => .pure _

theorem alike_write (p : Protection) (array : ArrayRef) (offset : Nat) (bytes : List UInt8) :
    (write p array offset bytes).Alike (Alongside c) := by
  refine .ite (.pure _) ?_
  cases p with
  | atomic => exact alike_writeAtomic _ _ _
  | nonAtomic => exact alike_writeDirect _ _ _

theorem alike_copy (p : Protection) (source : ArrayRef) (sourceOffset sourceLength : Int16)
    (destination : ArrayRef) (destinationOffset : Int16) :
    (copy p source sourceOffset sourceLength destination destinationOffset).Alike (Alongside c) :=
  alike_reported _ <| .bind (alike_query fun _ _ => rfl) fun _ =>
    .bind (alike_query fun _ _ => rfl) fun _ => .bind (alike_write _ _ _ _) fun _ =>
      .bind (alike_query fun _ _ => rfl) fun _ => .pure _

theorem alike_fill (p : Protection) (array : ArrayRef) (offset length : Int16)
    (valueArray : ArrayRef) (valueOffset : Int16) :
    (fill p array offset length valueArray valueOffset).Alike (Alongside c) :=
  alike_reported _ <| .bind (alike_query fun _ _ => rfl) fun _ =>
    .bind (alike_query fun _ _ => rfl) fun _ => .bind (alike_write _ _ _ _) fun _ =>
      .bind (alike_query fun _ _ => rfl) fun _ => .pure _

theorem alike_compare (left : ArrayRef) (leftOffset : Int16) (right : ArrayRef)
    (rightOffset length : Int16) :
    (compare left leftOffset right rightOffset length).Alike (Alongside c) :=
  alike_reported _ (alike_query fun _ _ => rfl)

theorem alike_find (array : ArrayRef) (offset : Int16) (valueArray : ArrayRef)
    (valueOffset : Int16) : (find array offset valueArray valueOffset).Alike (Alongside c) :=
  alike_reported _ (alike_query fun _ _ => rfl)

end Range

namespace TryCounter

theorem alike_refill (array : ArrayRef) (limit : UInt8) :
    (refill array limit).Alike (Alongside c) :=
  .bind (alike_query fun _ _ => rfl) fun _ => alike_writeUnconditional _ _ _

theorem alike_make (limit : UInt8) : (make limit).Alike (Alongside c) :=
  .bind (alike_query fun _ _ => rfl) fun _ => .bind (alike_allocate _) fun _ =>
    .bind (alike_refill _ _) fun _ => .pure _

theorem alike_spend (array : ArrayRef) : (spend array).Alike (Alongside c) :=
  .bind (alike_query fun _ _ => rfl) fun _ => .bind (alike_writeUnconditional _ _ _) fun _ =>
    .pure _

theorem alike_restoreTries (array : ArrayRef) : (restoreTries array).Alike (Alongside c) :=
  .bind (alike_query fun _ _ => rfl) fun _ => alike_writeUnconditional _ _ _

end TryCounter

end SmartCard
