-- SUMMARY: The accounts of the commit buffer: entries add up to what is charged, and no charge is ever clipped.
import SmartCard.Proofs.Memory.InRange
import SmartCard.Proofs.Memory.Logging

/-!
# The accounts of the commit buffer

A log is balanced when the costs of its entries add up to what it has charged. The charge of an
entry that has room is then exact: neither the limit of 32 bits nor the capacity cuts it off. Every
operation keeps the log balanced, since all it can do to a transaction is to open it, to add one
entry, or to close it (`Operation.Turns`).
-/

namespace SmartCard

namespace UndoLog

variable {log : UndoLog} {count : Nat}

/-- A log of non-empty before-images whose costs add up to what is charged. -/
structure Balanced (log : UndoLog) : Prop where
  filled : ∀ {e}, e ∈ log.entries → e.before ≠ []
  used_eq : log.used.toNat = (log.entries.map fun e => log.cost e.before.length).sum
  used_le : log.used ≤ log.max

theorem toNat_unused (h : log.used ≤ log.max) :
    log.unused.toNat = log.max.toNat - log.used.toNat :=
  UInt32.toNat_sub_of_le _ _ h

theorem fits_iff (h : log.used ≤ log.max) :
    log.fits count = true ↔ log.used.toNat + log.cost count ≤ log.max.toNat := by
  have hle : log.used.toNat ≤ log.max.toNat := UInt32.le_iff_toNat_le.mp h
  unfold fits
  rw [decide_eq_true_eq, toNat_unused h]
  omega

/-- Whatever is charged stays within the capacity. -/
theorem charged_le (log : UndoLog) (cost : Nat) : log.charged cost ≤ log.max := by
  show (if _ ≤ log.max then _ else log.max) ≤ log.max
  split
  next hle => exact hle
  next => exact UInt32.le_refl log.max

/-- An entry that has room is charged with its full cost. -/
theorem toNat_charged (h : log.used ≤ log.max) (hfits : log.fits count = true) :
    (log.charged (log.cost count)).toNat = log.used.toNat + log.cost count := by
  have hroom := (fits_iff h).mp hfits
  have hmax : log.max.toNat < UInt32.size := log.max.toNat_lt
  have hcost : (UInt32.ofNat (log.cost count)).toNat = log.cost count :=
    UInt32.toNat_ofNat_of_lt' (by omega)
  have hsum : min (log.used.toNat + log.cost count) (UInt32.size - 1) =
      log.used.toNat + log.cost count := Nat.min_eq_left (by omega)
  have hcharged : (UInt32.ofNat (log.used.toNat + log.cost count)).toNat =
      log.used.toNat + log.cost count := UInt32.toNat_ofNat_of_lt' (by omega)
  show (if _ ≤ log.max then _ else log.max : UInt32).toNat = _
  have hle : UInt32.ofNat (log.used.toNat + log.cost count) ≤ log.max :=
    UInt32.le_iff_toNat_le.mpr (Nat.le_trans (Nat.le_of_eq hcharged) hroom)
  rw [hcost, hsum, if_pos hle, hcharged]

/-- An entry takes its full cost from the room there was. -/
theorem toNat_unused_push {entry : UndoEntry} (h : log.used ≤ log.max)
    (hfits : log.fits entry.before.length = true) :
    (log.push entry).unused.toNat + log.cost entry.before.length = log.unused.toNat := by
  have hroom := (fits_iff h).mp hfits
  have hpush : (log.push entry).unused.toNat =
      (log.push entry).max.toNat - (log.push entry).used.toNat := toNat_unused (charged_le log _)
  have hcharged : (log.push entry).used.toNat = log.used.toNat + log.cost entry.before.length :=
    toNat_charged h hfits
  rw [hpush, hcharged, toNat_unused h]
  show log.max.toNat - _ + _ = _
  omega

theorem balanced_empty (max overhead : UInt32) : (empty max overhead).Balanced where
  filled := by intro e he; cases he
  used_eq := rfl
  used_le := UInt32.zero_le

theorem Balanced.push (h : log.Balanced) {entry : UndoEntry} (hentry : entry.before ≠ [])
    (hfits : log.fits entry.before.length = true) : (log.push entry).Balanced where
  filled := by
    intro e he
    rcases List.mem_cons.mp he with rfl | hold
    · exact hentry
    · exact h.filled hold
  used_eq := by
    show (log.charged _).toNat =
      ((entry :: log.entries).map fun e => log.cost e.before.length).sum
    rw [toNat_charged h.used_le hfits, h.used_eq, List.map_cons, List.sum_cons, Nat.add_comm]
  used_le := charged_le log _

end UndoLog

variable {c : Config} {m m' : Memory} {w : Write}

theorem Memory.Sound.cost_eq (h : m.Sound c) (count : Nat) :
    m.transaction.log.cost count = c.commitEntryOverhead.toNat + count := by
  rw [UndoLog.cost, h.overhead_eq]

/-! ## Logged writes -/

namespace Write

/-- Asking whether a write keeps an entry fails only if the array is not there. -/
theorem logs_isRefusal {e : Fault} (hlogs : w.logs m = .error e) : e.IsRefusal := by
  have hlookup (f : Descriptor → Bool)
      (hmap : (m.store.descriptor .store w.array).map f = .error e) : e.IsRefusal := by
    rcases hd : m.store.descriptor .store w.array with e' | d
    · rw [hd] at hmap
      cases hmap
      exact descriptor_isRefusal hd
    · rw [hd] at hmap
      cases hmap
  unfold logs at hlogs
  split at hlogs
  · exact hlookup _ hlogs
  · exact hlookup _ hlogs
  · cases hlogs
  · cases hlogs

/-- The log after a write has put its entry there. -/
theorem log_logged (hm : w.logged m = .ok m') :
    ∃ before, before.length = w.bytes.length ∧
      m.transaction.log.fits before.length = true ∧
      m'.transaction.log = m.transaction.log.push ⟨w.array, w.offset, before⟩ := by
  obtain ⟨before, t, hread, hlog, rfl⟩ := logged_eq_ok_iff.mp hm
  obtain ⟨hfits, rfl⟩ := logBefore?_eq_ok_iff.mp hlog
  rw [Transaction.log_opened] at hfits
  refine ⟨before, Store.length_of_read hread, hfits, ?_⟩
  show m.transaction.opened.log.push _ = _
  rw [Transaction.log_opened]

theorem balanced_logged (h : m.transaction.log.Balanced) (hw : w.bytes ≠ [])
    (hm : w.logged m = .ok m') : m'.transaction.log.Balanced := by
  obtain ⟨before, hlength, hfits, heq⟩ := log_logged hm
  have hbefore : before ≠ [] := by
    rintro rfl
    exact hw (List.length_eq_zero_iff.mp hlength.symm)
  rw [heq]
  exact h.push hbefore hfits

theorem balanced_issued (h : m.transaction.log.Balanced) (hw : w.bytes ≠ [])
    (hm : w.issued m = .ok m') : m'.transaction.log.Balanced := by
  rcases issued_cases hm with ⟨_, rfl⟩ | ⟨_, hlogged⟩
  · exact h
  · exact balanced_logged h hw hlogged

end Write

/-! ## Charges -/

/-- What becomes of the commit buffer when bytes of it are asked for. If there are as many, they are
charged to the open transaction, unless power is lost; an implicit transaction gives them back at
once. If not, no transaction is open any more. -/
structure Memory.Charges (cost : Nat) (m : Memory) (r : Except Fault Unit × Memory) : Prop where
  accepted : cost ≤ m.transaction.unusedCapacity.toNat →
    (∃ e, r.1 = .error e ∧ e.isPowerLoss = true) ∨
    r.1 = .ok () ∧ r.2.transaction.isIdle = m.transaction.isIdle ∧
      (m.transaction.isIdle = false →
        r.2.transaction.unusedCapacity.toNat + cost = m.transaction.unusedCapacity.toNat)
  refused : m.transaction.unusedCapacity.toNat < cost →
    ∃ e, r.1 = .error e ∧ e.isBufferFull = true ∧ r.2.transaction.isIdle = true

namespace Write

/-- A write in an open transaction leaves it with the log of the write. -/
theorem settled_stored (hs : m.Settled) (hopen : m.transaction.isIdle = false)
    (hm : w.issued m = .ok m') : (w.stored m').settled.transaction = m'.transaction := by
  have hsettled : m'.Settled := settled_issued hs hopen hm
  rw [settled_eq (m := w.stored m') hsettled]
  rfl

/-- A logged write without a transaction leaves none. -/
theorem isIdle_settled_stored (hidle : m.transaction.isIdle = true) (hm : w.logged m = .ok m') :
    (w.stored m').settled.transaction.isIdle = true := by
  have himplicit : m'.transaction.state = .implicit := implicit_logged hidle hm
  have hstored : (w.stored m').transaction.state = .implicit := himplicit
  rw [Memory.settled, if_pos hstored]
  rfl

theorem charges_act (hw : w.InRange m.store) (h : m.Sound c) (hs : m.Settled)
    (hlogs : w.logs m = .ok true) (hle : m.transaction.log.used ≤ m.transaction.log.max) :
    m.Charges (m.transaction.log.cost w.bytes.length) (w.act.exec m) := by
  have hended := ended hw h hs
  have hroom : ∀ {m'}, w.issued m = .ok m' →
      m.transaction.log.cost w.bytes.length ≤ m.transaction.unusedCapacity.toNat := by
    intro m' hm
    rw [issued_of_logged hlogs] at hm
    obtain ⟨before, hlength, hfits, _⟩ := log_logged hm
    rw [hlength] at hfits
    exact of_decide_eq_true hfits
  generalize w.act.exec m = r at hended
  cases hended with
  | @done m' hm hanswer =>
    have hfits := hroom hm
    refine ⟨fun _ => .inr ⟨rfl, ?_⟩, fun hover => absurd hfits (Nat.not_le.mpr hover)⟩
    rcases hidle : m.transaction.isIdle with _ | _
    · have htransaction := settled_stored hs hidle hm
      rw [htransaction]
      refine ⟨isIdle_issued hidle hm, fun _ => ?_⟩
      rw [issued_of_logged hlogs] at hm
      obtain ⟨before, hlength, hfits', hlog⟩ := log_logged hm
      have hcharge : (m.transaction.log.push ⟨w.array, w.offset, before⟩).unused.toNat +
          m.transaction.log.cost before.length = m.transaction.log.unused.toNat :=
        UndoLog.toNat_unused_push hle hfits'
      rw [hlength, ← hlog] at hcharge
      exact hcharge
    · rw [issued_of_logged hlogs] at hm
      exact ⟨isIdle_settled_stored hidle hm, nofun⟩
  | @lost m' e hm hloss =>
    exact ⟨fun _ => .inl ⟨e, rfl, hloss⟩,
      fun hover => absurd (hroom hm) (Nat.not_le.mpr hover)⟩
  | @full e _ hfits hfull =>
    refine ⟨fun hle' => ?_, fun _ => ⟨e, rfl, hfull, rfl⟩⟩
    exact absurd hle' (of_decide_eq_false hfits)

end Write

/-! ## Operations -/

namespace Operation

/-- What an operation can make of the transaction. -/
inductive Turns (c : Config) (m : Memory) : Operation → Transaction → Prop where
  | kept {op : Operation} : Turns c m op m.transaction
  | closed {op : Operation} : Turns c m op (.idle c)
  | opened :
      m.transaction.isIdle = true → Turns c m .begin { m.transaction with state := .explicit }
  | logged {w : Write} {m' : Memory} :
      w.logs m = .ok true → w.logged m = .ok m' → Turns c m (.write w) m'.transaction

theorem turns_close (h : m.Sound c) {op : Operation} : Turns c m op m.transaction.close := by
  rw [h.close_eq]
  exact .closed

theorem turns_write (h : m.Sound c) (hs : m.Settled) (w : Write) :
    Turns c m (.write w) (w.act.exec m).2.transaction := by
  rw [Write.exec_act h hs]
  rcases hissued : w.issued m with e | m'
  · unfold Write.ending
    dsimp only
    split
    · exact turns_close h
    · exact .kept
  · have hclose := (Write.sound_issued h hissued).close_eq
    have hturns : Turns c m (.write w) m'.transaction := by
      rcases Write.issued_cases hissued with ⟨_, rfl⟩ | ⟨hlogs, hlogged⟩
      · exact .kept
      · exact .logged hlogs hlogged
    -- Only a recovery and the end of an implicit transaction touch the transaction after that.
    have hconcluded : (w.concluded m').2.transaction = m'.transaction ∨
        (w.concluded m').2.transaction = .idle c := by
      unfold Write.concluded
      rcases w.answer m' with e | _
      · dsimp only
        split
        · exact .inr hclose
        · exact .inl rfl
      · exact .inl rfl
    rw [Write.ending, Memory.settled]
    dsimp only
    split
    · rcases hconcluded with heq | heq <;> rw [heq]
      · rw [hclose]
        exact .closed
      · exact .closed
    · rcases hconcluded with heq | heq <;> rw [heq]
      · exact hturns
      · exact .closed

theorem turns_act (h : m.Sound c) (hs : m.Settled) (op : Operation) :
    Turns c m op (op.act.exec m).2.transaction := by
  cases op with
  | begin =>
    rw [act, Memory.exec_begin]
    split
    next hidle => exact .opened hidle
    next => exact .kept
  | commit =>
    rw [act, Memory.exec_commit]
    split
    · exact .kept
    · exact turns_close h
  | abort =>
    rw [act, h.exec_abort]
    split
    · exact .kept
    · exact turns_close h
  | write w => exact turns_write h hs w
  | allocate d =>
    rw [exec_allocate]
    rcases m.store.allocate d with _ | ⟨_, _⟩
    · exact .kept
    · exact .kept
  | reset =>
    rw [exec_reset h]
    exact turns_close h
  | deselect => exact .kept
  | arm bytes => exact .kept
  | flip array byte mask =>
    rw [exec_flip]
    rcases m.store.flipBits array byte mask with _ | _
    · exact .kept
    · exact .kept

/-- Whether an operation writes at least one byte, if it writes at all. -/
def IsFilled : Operation → Prop
  | .write w => w.bytes ≠ []
  | _ => True

theorem balanced_act (h : m.Sound c) (hs : m.Settled) (hb : m.transaction.log.Balanced)
    {op : Operation} (hop : op.IsFilled) : (op.act.exec m).2.transaction.log.Balanced := by
  have hturns := turns_act h hs op
  generalize (op.act.exec m).2.transaction = t at hturns
  cases hturns with
  | kept => exact hb
  | closed => exact UndoLog.balanced_empty _ _
  | opened => exact hb
  | logged _ hlogged => exact Write.balanced_logged hb hop hlogged

theorem trace_singleton (m : Memory) (op : Operation) : trace m [op] = [(m, op)] := by
  rw [trace]
  rcases op.act.exec m with ⟨_ | _, _⟩ <;> rfl

/-- Whether an operation neither logs a write nor closes a transaction. -/
def IsQuiet (m : Memory) : Operation → Prop
  | .write w => w.logs m ≠ .ok true
  | .commit | .abort | .reset => False
  | _ => True

/-- Nothing but a loss of power lets a quiet operation change the log. -/
theorem log_act_of_quiet (h : m.Sound c) (hs : m.Settled) {op : Operation} (hop : op.IsQuiet m) :
    (op.act.exec m).2.transaction.log = m.transaction.log ∨
      ∃ e, (op.act.exec m).1 = .error e ∧ e.isPowerLoss = true := by
  cases op with
  | begin =>
    rw [act, Memory.exec_begin]
    split
    · exact .inl rfl
    · exact .inl rfl
  | commit => exact hop.elim
  | abort => exact hop.elim
  | reset => exact hop.elim
  | allocate d => exact .inl (congrArg Transaction.log (transaction_allocate d m))
  | deselect => exact .inl rfl
  | arm bytes => exact .inl rfl
  | flip array byte mask =>
    exact .inl (congrArg Transaction.log (transaction_flip array byte mask m))
  | write w =>
    rw [act, Write.exec_act h hs]
    rcases hlogs : w.logs m with e | _ | _
    · rw [Write.issued_of_refusal hlogs, Write.ending_of_refusal (Write.logs_isRefusal hlogs)]
      exact .inl rfl
    · rw [Write.issued_of_unlogged hlogs, Write.ending_of_unlogged hs, Write.concluded]
      rcases w.answer m with e | _
      · dsimp only
        split
        next hloss => exact .inr ⟨e, rfl, hloss⟩
        next => exact .inl rfl
      · exact .inl rfl
    · exact absurd hlogs hop

theorem log_run_of_quiet (h : m.Sound c) (hs : m.Settled) {ops : List Operation}
    (hquiet : ∀ step ∈ trace m ops, step.2.IsQuiet step.1) :
    (run m ops).2.transaction.log = m.transaction.log ∨
      ∃ e, (run m ops).1 = .error e ∧ e.isPowerLoss = true := by
  induction ops generalizing m with
  | nil => exact .inl rfl
  | cons op more ih =>
    have hsound := sound_act h hs op
    have hsettled := settled_act h hs op
    rw [trace] at hquiet
    have hfirst := log_act_of_quiet h hs (hquiet _ List.mem_cons_self)
    rw [run]
    generalize op.act.exec m = r at hsound hsettled hquiet hfirst
    rcases r with ⟨_ | _, m'⟩
    · exact hfirst
    · rcases hfirst with hlog | ⟨e, he, _⟩
      · rw [← hlog]
        exact ih hsound hsettled fun step hstep => hquiet step (List.mem_cons_of_mem _ hstep)
      · cases he

/-- Runs of operations that write something keep the log balanced. -/
theorem balanced_run {ops : List Operation} (hfilled : ∀ op ∈ ops, op.IsFilled) (h : m.Sound c)
    (hs : m.Settled) (hb : m.transaction.log.Balanced) :
    (run m ops).2.transaction.log.Balanced ∧
      ∀ {m' : Memory} {op : Operation}, (m', op) ∈ trace m ops →
        m'.Sound c ∧ m'.Settled ∧ m'.transaction.log.Balanced := by
  obtain ⟨⟨_, _, hend⟩, hbefore⟩ := kept_run (P := fun m => m.transaction.log.Balanced)
    (fun op hop _ h' hs' hb' => balanced_act h' hs' hb' (hfilled op hop)) h hs hb
  exact ⟨hend, hbefore⟩

end Operation

end SmartCard
