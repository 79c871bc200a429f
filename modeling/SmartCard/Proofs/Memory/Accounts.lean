-- SUMMARY: Every operation on a memory accounts for what it does to the transaction, event by event.
import SmartCard.Proofs.Checks
import SmartCard.Proofs.Events
import SmartCard.Proofs.Memory.Capacity

/-!
# Accounts of operations

The events of an operation lead from the bracket in which the memory was to the one in which it is
afterwards (`Operation.accounts_act`). Wherever a write fails, the rollback that closes the bracket
comes from another place: from the lane, for an overflow; from the recovery, for a tear.
-/

namespace SmartCard

variable {α β : Type} {c : Config} {m m' : Memory} {w : Write} {e : Fault}

namespace Memory

/-- The bracket that a memory is in. -/
def bracket (m : Memory) : Bracket :=
  if m.transaction.isIdle then .closed
  else
    .opened (m.transaction.state == .implicit) m.transaction.log.entries.length
      m.transaction.log.used.toNat

theorem bracket_of_idle (h : m.transaction.isIdle = true) : m.bracket = .closed := if_pos h

theorem bracket_of_open (h : m.transaction.isIdle = false) :
    m.bracket = .opened (m.transaction.state == .implicit) m.transaction.log.entries.length
      m.transaction.log.used.toNat :=
  if_neg (Bool.eq_false_iff.mp h)

theorem isAtRest_bracket (m : Memory) : m.bracket.IsAtRest := by
  unfold bracket
  split <;> trivial

theorem isOpen_bracket (m : Memory) : m.bracket.isOpen = !m.transaction.isIdle := by
  unfold bracket
  rcases m.transaction.isIdle with _ | _ <;> rfl

/-- A transaction that has just been opened. -/
theorem Sound.bracket_begun (h : m.Sound c) (hidle : m.transaction.isIdle = true)
    (state : TransactionState) (hstate : state ≠ .idle) :
    bracket { m with transaction := { m.transaction with state := state } } =
      .opened (state == .implicit) 0 0 := by
  have hopen : Transaction.isIdle { m.transaction with state := state } = false :=
    Bool.eq_false_iff.mpr fun heq => hstate (eq_of_beq heq)
  rw [bracket_of_open hopen, h.idle_eq hidle]
  rfl

end Memory

/-! ## Acts that account for what they do -/

/-- Whether an act accounts for what it does to the bracket that a state is in. -/
def Act.Accounts {σ : Type} (x : Act σ α) (bracket : σ → Bracket) (s : σ) : Prop :=
  Told (bracket s) (x s).result (x s).events (bracket (x s).state)

/-- Faults of no interest to observers. -/
theorem Told.refused {b : Bracket} (he : e.IsRefusal) : Told b (.error e : Except Fault α) [] b :=
  .silent he.2 he.1

theorem Told.nothing {b : Bracket} (a : α) : Told b (.ok a) [] b := .silent rfl rfl

namespace Act.Accounts

variable {σ : Type} {bracket : σ → Bracket} {s s' : σ} {x : Act σ α} {f : α → Act σ β}

theorem of_exec {r : Except Fault α} (hexec : x.exec s = (r, s'))
    (h : Told (bracket s) r (x s).events (bracket s')) : x.Accounts bracket s := by
  obtain ⟨rfl, rfl⟩ := Prod.mk.inj hexec
  exact h

theorem told (hx : x.Accounts bracket s) {r : Except Fault α} (hexec : x.exec s = (r, s')) :
    Told (bracket s) r (x s).events (bracket s') := by
  obtain ⟨rfl, rfl⟩ := Prod.mk.inj hexec
  exact hx

theorem bind (hx : x.Accounts bracket s)
    (hf : ∀ a s', x.exec s = (.ok a, s') → (f a).Accounts bracket s') :
    (x >>= f).Accounts bracket s := by
  rcases hexec : x.exec s with ⟨e | a, s'⟩
  · refine .of_exec (exec_bind_of_error hexec) ?_
    rw [events_bind_of_error hexec]
    exact ⟨(hx.told hexec).follows, (hx.told hexec).overflows, (hx.told hexec).losses,
      (hx.told hexec).apart⟩
  · refine .of_exec (exec_bind_of_ok hexec) ?_
    rw [events_bind_of_ok hexec]
    exact (hx.told hexec).append (hf a s' hexec)

/-- A handler that succeeds and accounts for what it does. -/
theorem onFault (hx : x.Accounts bracket s) {handler : Fault → Act σ Unit}
    (hh : ∀ e s', x.exec s = (.error e, s') →
      ∃ s'', (handler e).exec s' = (.ok (), s'') ∧ (handler e).Accounts bracket s') :
    (x.onFault handler).Accounts bracket s := by
  rcases hexec : x.exec s with ⟨e | a, s'⟩
  · obtain ⟨s'', hhandled, haccounts⟩ := hh e s' hexec
    refine .of_exec (exec_onFault_of_error hexec hhandled) ?_
    rw [events_onFault_of_error hexec]
    exact (hx.told hexec).after (haccounts.told hhandled)
  · refine .of_exec (exec_onFault_of_ok hexec) ?_
    rw [events_onFault_of_ok hexec]
    exact hx.told hexec

theorem query {f : σ → Except Fault α} (hf : ∀ e, f s = .error e → e.IsRefusal) :
    (Act.query f).Accounts bracket s := by
  refine .of_exec (exec_query f s) ?_
  rcases hr : f s with e | a
  · exact .refused (hf e hr)
  · exact .nothing a

theorem query_bind {f : σ → Except Fault α} {g : α → Act σ β}
    (hf : ∀ e, f s = .error e → e.IsRefusal) (hg : ∀ a, f s = .ok a → (g a).Accounts bracket s) :
    (Act.query f >>= g).Accounts bracket s := by
  refine (query hf).bind fun a s' hexec => ?_
  obtain ⟨ha, rfl⟩ := Prod.mk.inj hexec
  exact hg a ha

theorem read_bind {f : σ → α} {g : α → Act σ β} (hg : (g (f s)).Accounts bracket s) :
    (Act.read f >>= g).Accounts bracket s := by
  refine query_bind (f := fun s => .ok (f s)) (fun _ he => nomatch he) fun a ha => ?_
  cases ha
  exact hg

theorem modify {f : σ → σ} (hf : bracket (f s) = bracket s) :
    (Act.modify f).Accounts bracket s := by
  refine .of_exec (exec_modify f s) ?_
  rw [hf]
  exact .nothing ()

theorem pure (a : α) : (Pure.pure a : Act σ α).Accounts bracket s :=
  .of_exec (exec_pure a s) (.nothing a)

theorem fail (he : e.IsRefusal) : (Act.fail e : Act σ α).Accounts bracket s :=
  .of_exec (exec_fail e s) (.refused he)

theorem note (n : Note) : (Act.note n : Act σ Unit).Accounts bracket s :=
  .of_exec (exec_note n s) (.nothing ())

/-- A turn of the transaction, and the event that reports it. -/
theorem turned {t : Transaction} {event : Event}
    (hstep : m.bracket.Step event (Memory.bracket { m with transaction := t }))
    (hfull : event.isOverflow = false) (hloss : event.isPowerLost = false)
    (hrange : event.operation? = none) {x : Act Memory α}
    (hx : x.Accounts Memory.bracket { m with transaction := t }) :
    Act.Accounts (do
      Memory.setTransaction t
      Act.emit event
      x) Memory.bracket m := by
  have hset := Memory.exec_setTransaction t m
  have hemit := exec_emit event { m with transaction := t }
  refine .of_exec ((exec_bind_of_ok hset).trans (exec_bind_of_ok hemit)) ?_
  rw [events_bind_of_ok hset, events_bind_of_ok hemit]
  exact (Told.one () hstep hfull hloss hrange).append (hx.told rfl)

end Act.Accounts

/-! ## Rollbacks -/

namespace Memory

/-- What a rollback reports. -/
def rollback (m : Memory) (cause : AbortCause) : List Event :=
  if m.transaction.isIdle then [] else [.aborted cause m.transaction.log.entries.length]

/-- What a recovery reports. -/
def recovery (m : Memory) : List Event :=
  .powerLost :: (m.rollback .powerLoss ++
    [.transientsCleared (m.undone.countTransients fun _ => true)])

theorem events_restore (entries : List UndoEntry) (s : Store) :
    (UndoLog.restore entries s).events = [] := by
  induction entries generalizing s with
  | nil => rfl
  | cons entry older ih =>
    rw [UndoLog.restore, Act.events_bind, Store.put, Act.events_step]
    rcases (Act.exec _ s).1 with _ | _
    · rfl
    · exact ih _

theorem Sound.events_rollBackOpen (h : m.Sound c) (cause : AbortCause) :
    (rollBackOpen cause m).events = m.rollback cause := by
  have hrestore : (onStore (UndoLog.restore m.transaction.log.entries)).exec
      { m with transaction := m.transaction.close } = (.ok (), m.rolledBack) := by
    rw [exec_onStore, h.restored.exec]
    rfl
  unfold rollBackOpen rollback
  rw [Act.events_bind_of_ok (Act.exec_read _ _), Act.events_read, Act.events_ite]
  rcases m.transaction.isIdle with _ | _
  · rw [if_neg Bool.false_ne_true, if_neg Bool.false_ne_true,
      Act.events_bind_of_ok (exec_setTransaction _ _), rollBack, Act.events_bind_of_ok hrestore,
      events_onStore, events_restore]
    rfl
  · rfl

theorem events_clearTransients (ends : Lifetime → Bool) (m : Memory) :
    (clearTransients ends m).events = [.transientsCleared (m.store.countTransients ends)] := rfl

theorem Sound.events_recover (h : m.Sound c) : (recover m).events = m.recovery := by
  have hm : Memory.Sound c { m with store := { m.store with tear := none } } :=
    h.withStore (h.store.withTear none) id
  have hrollBack := hm.exec_rollBackOpen .powerLoss
  unfold recover recovery
  rw [Act.events_bind_of_ok (Act.exec_emit _ _), Act.events_bind_of_ok (Act.exec_note _ _)]
  have hdisarm : (onStore (Store.setTear none)).exec m =
      (.ok (), { m with store := { m.store with tear := none } }) := rfl
  rw [Act.events_bind_of_ok hdisarm, Act.events_bind_of_ok hrollBack, hm.events_rollBackOpen]
  unfold Memory.rolledBack
  rw [undone_withTear]
  rfl

/-- A recovery closes the bracket. -/
theorem follows_recovery (m : Memory) : m.bracket.Follows m.recovery .closed := by
  unfold bracket recovery rollback
  rcases m.transaction.isIdle with _ | _
  · exact .cons .lostInside (.cons .rolledBack (.one .cleared))
  · exact .cons .lost (.one .cleared)

theorem told_recovery (m : Memory) (hloss : e.isPowerLoss = true) (hfull : e.isBufferFull = false) :
    Told m.bracket (.error e : Except Fault α) m.recovery .closed where
  follows := m.follows_recovery
  overflows := by
    rw [failsBy, hfull]
    unfold recovery rollback
    rcases m.transaction.isIdle with _ | _ <;> rfl
  losses := by
    rw [failsBy, hloss]
    unfold recovery rollback
    rcases m.transaction.isIdle with _ | _ <;> rfl
  apart := by
    unfold recovery rollback
    rcases m.transaction.isIdle with _ | _ <;> simp [Event.operation?]

end Memory

/-! ## Lanes -/

namespace Write

theorem events_write (w : Write) (s : Store) :
    (Store.write w.array w.offset w.bytes s).events = [] := by
  have hput : ∀ bytes s', (Store.put w.array w.offset bytes s').events = [] := fun _ _ =>
    Act.events_step _ _
  unfold Store.write
  rw [Act.events_bind_of_ok (Act.exec_read _ _)]
  rcases s.tear with _ | budget
  · exact hput _ _
  · dsimp only
    rw [Act.events_ite]
    split
    · simp only [Store.setTear, Act.events_bind, Act.events_modify, Act.exec_modify, hput,
        Act.events_fail]
      rcases (Act.exec _ _).1 with _ | _ <;> rfl
    · exact hput _ _

/-- What the store makes of a write is accounted for. -/
theorem told_concluded (h : m.Sound c) (w : Write) :
    Told m.bracket (w.concluded m).1 (Memory.writeStore w.array w.offset w.bytes m).events
      (w.concluded m).2.bracket := by
  have hwritten := w.written m
  have hexec : (Memory.onStore (Store.write w.array w.offset w.bytes)).exec m =
      (w.answer m, w.stored m) := rfl
  unfold Memory.writeStore concluded
  rcases hanswer : w.answer m with e | _
  · rw [hanswer] at hexec hwritten
    rw [Act.events_onFault_of_error hexec, Memory.events_onStore, events_write, Act.events_ite,
      (sound_stored (w := w) h).events_recover]
    generalize (w.stored m).store = s at hwritten
    cases hwritten with
    | torn => exact Memory.told_recovery (w.stored m) rfl rfl
    | refused _ _ hrefusal =>
      dsimp only
      rw [hrefusal.1]
      exact .refused hrefusal
  · rw [hanswer] at hexec
    rw [Act.events_onFault_of_ok hexec, Memory.events_onStore, events_write]
    exact .nothing ()

/-- The bracket has one more entry in it when a write has been logged. -/
theorem bracket_logged (hopen : m.transaction.isIdle = false)
    (hle : m.transaction.log.used ≤ m.transaction.log.max) (hm : w.logged m = .ok m') :
    m'.bracket = .opened (m.transaction.state == .implicit)
      (m.transaction.log.entries.length + 1)
      (m.transaction.log.used.toNat + m.transaction.log.cost w.bytes.length) := by
  obtain ⟨before, hlength, hfits, hlog⟩ := log_logged hm
  obtain ⟨_, _, _, hstate, _⟩ := entries_logged hm
  have hopened : m.transaction.opened = m.transaction := by
    rw [Transaction.opened, hopen]
    rfl
  have hcharged := UndoLog.toNat_charged hle hfits
  rw [Memory.bracket_of_open (isIdle_logged hm), hstate, hopened, hlog, ← hlength, ← hcharged]
  rfl

theorem logBefore?_fault {t : Transaction} {entry : UndoEntry} (h : t.logBefore? entry = .error e) :
    e.isBufferFull = true ∧ e.isPowerLoss = false := by
  unfold Transaction.logBefore? at h
  split at h
  · cases h
  · cases h
    exact ⟨rfl, rfl⟩

/-- An overflow closes the transaction on the spot. -/
theorem accounts_log (h : m.Sound c) (hopen : m.transaction.isIdle = false) (before : List UInt8) :
    Act.Accounts ((Act.query fun _ => m.transaction.logBefore? ⟨w.array, w.offset, before⟩).onFault
      fun e => do
        Act.emit (.capacityExceeded w.bytes.length m.transaction.unusedCapacity.toNat)
        Act.note (.capacityExceeded w.array e)
        Memory.rollBackOpen .overflow) Memory.bracket m := by
  have hlog : (Act.query fun _ : Memory =>
      m.transaction.logBefore? ⟨w.array, w.offset, before⟩).exec m =
        (m.transaction.logBefore? ⟨w.array, w.offset, before⟩, m) := rfl
  rcases hpush : m.transaction.logBefore? ⟨w.array, w.offset, before⟩ with e | t
  · obtain ⟨hfull, hloss⟩ := logBefore?_fault hpush
    rw [hpush] at hlog
    have hemit := Act.exec_emit
      (.capacityExceeded w.bytes.length m.transaction.unusedCapacity.toNat) m
    have hnote := Act.exec_note (.capacityExceeded w.array e) m
    have hhandled : (do
        Act.emit (.capacityExceeded w.bytes.length m.transaction.unusedCapacity.toNat)
        Act.note (.capacityExceeded w.array e)
        Memory.rollBackOpen .overflow : Act Memory Unit).exec m = (.ok (), m.rolledBack) := by
      rw [Act.exec_bind_of_ok hemit, Act.exec_bind_of_ok hnote, h.exec_rollBackOpen]
    refine .of_exec (Act.exec_onFault_of_error hlog hhandled) ?_
    rw [Act.events_onFault_of_error hlog, Act.events_bind_of_ok hemit, Act.events_bind_of_ok hnote,
      h.events_rollBackOpen, Memory.rollback, hopen, Memory.bracket_of_open hopen]
    exact ⟨.cons .exceeded (.one .overflowed), by rw [failsBy, hfull]; rfl,
      by rw [failsBy, hloss]; rfl, by simp [Event.operation?]⟩
  · rw [hpush] at hlog
    refine .of_exec (Act.exec_onFault_of_ok hlog) ?_
    rw [Act.events_onFault_of_ok hlog]
    exact .nothing t

theorem accounts_writeStore (h : m.Sound c) (w : Write) :
    (Memory.writeStore w.array w.offset w.bytes).Accounts Memory.bracket m :=
  .of_exec (exec_writeStore h w) (told_concluded h w)

/-- Logging and writing in an open transaction. -/
theorem accounts_writeLogged (h : m.Sound c) (hp : m.store.IsPersistent w.array)
    (hopen : m.transaction.isIdle = false)
    (hle : m.transaction.log.used ≤ m.transaction.log.max) :
    (Memory.writeLogged w.array w.offset w.bytes).Accounts Memory.bracket m := by
  have hopened : m.transaction.opened = m.transaction := by
    rw [Transaction.opened, hopen]
    rfl
  refine .query_bind (fun _ he => Store.read_isRefusal he) fun before hread =>
    .read_bind ((accounts_log h hopen before).bind fun t m' hexec => ?_)
  obtain ⟨hpush, rfl⟩ := Act.exec_onFault_query_eq_ok hexec
  have hlogged : w.logged m' = .ok { m' with transaction := t } := by
    rw [logged_of_read hread, hopened, hpush]
    rfl
  have hlength : before.length = w.bytes.length := Store.length_of_read hread
  refine .turned ?_ rfl rfl rfl (accounts_writeStore (sound_logged h hp hlogged) w)
  rw [bracket_logged hopen hle hlogged, Memory.bracket_of_open hopen, hlength]
  exact .logged

theorem sound_writeLogged (h : m.Sound c) (hp : m.store.IsPersistent w.array)
    (hopen : m.transaction.isIdle = false) :
    ((Memory.writeLogged w.array w.offset w.bytes).exec m).2.Sound c := by
  rw [exec_writeLogged h hp hopen]
  rcases hlogged : w.logged m with e | m'
  · dsimp only
    split
    · exact h.rolledBack
    · exact h
  · exact sound_concluded (sound_logged h hp hlogged)

end Write

namespace Memory

theorem Sound.accounts_rollBackOpen (h : m.Sound c) {cause : AbortCause} (hfull : cause ≠ .overflow)
    (hloss : cause ≠ .powerLoss) : (rollBackOpen cause).Accounts Memory.bracket m := by
  refine .of_exec (h.exec_rollBackOpen cause) ?_
  rw [h.events_rollBackOpen, rollback, bracket_of_idle (m := m.rolledBack) rfl]
  rcases hidle : m.transaction.isIdle with _ | _
  · rw [bracket_of_open hidle]
    refine .one () (.aborted hfull hloss) ?_ rfl rfl
    cases cause <;> first | rfl | exact absurd rfl hfull
  · rw [bracket_of_idle hidle]
    exact .nothing ()

theorem accounts_commit (m : Memory) : commit.Accounts Memory.bracket m := by
  unfold commit
  refine .read_bind ?_
  dsimp only
  rcases hidle : m.transaction.isIdle with _ | _
  · rw [if_neg Bool.false_ne_true]
    refine .turned ?_ rfl rfl rfl ?_
    · rw [bracket_of_open hidle, bracket_of_idle rfl]
      exact .committed
    · split
      · exact .pure ()
      · exact .note _
  · exact .fail ⟨rfl, rfl⟩

end Memory

namespace Write

/-- The implicit transaction around a write is closed before the write ends. -/
theorem accounts_writeImplicit (h : m.Sound c) (hp : m.store.IsPersistent w.array)
    (hidle : m.transaction.isIdle = true) :
    Act.Accounts (do
      Memory.setTransaction m.transaction.beginImplicit
      Act.emit (.begun true)
      (Memory.writeLogged w.array w.offset w.bytes).onFault fun _ => do
        let t ← Act.read Memory.transaction
        if t.state == .implicit then Memory.rollBackOpen .explicit else pure ()
      Memory.commit) Memory.bracket m := by
  have hbegun : Memory.Sound c { m with transaction := m.transaction.beginImplicit } :=
    ⟨h.store, h.entries, h.max_eq, h.overhead_eq, fun himplicit => by cases himplicit⟩
  have hopened := h.bracket_begun hidle .implicit nofun
  have hzero : m.transaction.log.used = 0 := by rw [h.idle_eq hidle]; rfl
  have hle : m.transaction.log.used ≤ m.transaction.log.max := by
    rw [hzero]
    exact UInt32.zero_le
  have hsound := sound_writeLogged (w := w) hbegun hp rfl
  refine .turned ?_ rfl rfl rfl (.bind (.onFault (accounts_writeLogged hbegun hp rfl hle) ?_) ?_)
  · rw [Memory.bracket_of_idle hidle, Transaction.beginImplicit, hopened]
    exact .begun
  · intro e m' hexec
    rw [hexec] at hsound
    refine ⟨_, exec_closeImplicit hsound, .read_bind ?_⟩
    split
    · exact hsound.accounts_rollBackOpen nofun nofun
    · exact .pure ()
  · exact fun _ m' _ => m'.accounts_commit

/-- Whatever the lane, a write accounts for what it does. -/
theorem accounts_act (h : m.Sound c) (hle : m.transaction.log.used ≤ m.transaction.log.max)
    (w : Write) : w.act.Accounts Memory.bracket m := by
  have hatomic : (Memory.writeAtomic w.array w.offset w.bytes).Accounts Memory.bracket m := by
    unfold Memory.writeAtomic
    refine .query_bind (fun _ he => descriptor_isRefusal he) fun d hd => .read_bind ?_
    rcases hp : d.lifetime.isPersistent with _ | _
    · rw [if_pos (Lifetime.isTransient_of_not_persistent hp)]
      exact accounts_writeStore h w
    · have hpersistent : m.store.IsPersistent w.array := ⟨d, h.store.descriptor_iff.mp hd, hp⟩
      rw [Lifetime.not_transient_of_persistent hp, if_neg Bool.false_ne_true]
      rcases hidle : m.transaction.isIdle with _ | _
      · exact accounts_writeLogged h hpersistent hidle hle
      · exact accounts_writeImplicit h hpersistent hidle
  unfold act
  rcases w.lane with _ | _ | _ | _
  case atomic => exact hatomic
  case participating =>
    refine .query_bind (fun _ he => descriptor_isRefusal he) fun d hd => .read_bind ?_
    rcases hp : d.lifetime.isPersistent with _ | _
    · rw [if_pos (Lifetime.isTransient_of_not_persistent hp)]
      exact accounts_writeStore h w
    · rw [Lifetime.not_transient_of_persistent hp, if_neg Bool.false_ne_true]
      rcases hidle : m.transaction.isIdle with _ | _
      · exact accounts_writeLogged h ⟨d, h.store.descriptor_iff.mp hd, hp⟩ hidle hle
      · rw [if_pos rfl]
        split
        · exact hatomic
        · exact accounts_writeStore h w
  case direct => exact accounts_writeStore h w
  case unconditional =>
    refine .read_bind ?_
    dsimp only
    split
    · exact accounts_writeStore h w
    · refine .bind (.note _) fun _ m' hexec => ?_
      obtain ⟨_, rfl⟩ := Prod.mk.inj hexec
      exact accounts_writeStore h w

end Write

/-! ## Other operations -/

namespace Memory

theorem Sound.accounts_begin (h : m.Sound c) : begin.Accounts Memory.bracket m := by
  unfold begin Transaction.begin?
  rcases hidle : m.transaction.isIdle with _ | _
  · refine .query_bind (fun e he => ?_) fun t ht => ?_
    · rw [hidle] at he
      cases he
      exact ⟨rfl, rfl⟩
    · rw [hidle] at ht
      cases ht
  · refine .query_bind (fun e he => ?_) fun t ht => ?_
    · rw [hidle] at he
      cases he
    · rw [hidle] at ht
      cases ht
      refine .turned ?_ rfl rfl rfl (.note _)
      rw [bracket_of_idle hidle, h.bracket_begun hidle .explicit nofun]
      exact .begun

theorem Sound.accounts_abort (h : m.Sound c) : abort.Accounts Memory.bracket m := by
  refine .read_bind ?_
  split
  · exact .fail ⟨rfl, rfl⟩
  · exact h.accounts_rollBackOpen nofun nofun

theorem accounts_clearTransients (ends : Lifetime → Bool) (m : Memory) :
    (clearTransients ends).Accounts Memory.bracket m := by
  refine .of_exec (exec_clearTransients ends m) ?_
  rw [events_clearTransients]
  exact .one _ (.deselected m.isAtRest_bracket) rfl rfl rfl

theorem Sound.accounts_reset (h : m.Sound c) : reset.Accounts Memory.bracket m := by
  have hback : (rollBackOpen .reset).Accounts Memory.bracket m :=
    h.accounts_rollBackOpen nofun nofun
  exact hback.bind fun _ m' _ => accounts_clearTransients _ m'

theorem accounts_allocate (d : Descriptor) (m : Memory) :
    (allocate d).Accounts Memory.bracket m := by
  rcases hd : m.store.allocate d with e | ⟨array, s⟩
  · refine .of_exec (exec_allocate_of_error hd) ?_
    rw [allocate, events_onStore, Act.events_step]
    exact .refused ((checks_allocate _ _ _ hd).refusal)
  · refine .of_exec (exec_allocate_of_ok hd) ?_
    rw [allocate, events_onStore, Act.events_step]
    exact .nothing array

end Memory

namespace Operation

/-- Every operation accounts for what it does. -/
theorem accounts_act (h : m.Sound c) (hle : m.transaction.log.used ≤ m.transaction.log.max)
    (op : Operation) : op.act.Accounts Memory.bracket m := by
  cases op with
  | begin => exact h.accounts_begin
  | commit => exact m.accounts_commit
  | abort => exact h.accounts_abort
  | write w => exact Write.accounts_act h hle w
  | allocate d => exact (Memory.accounts_allocate d m).bind fun _ _ _ => .pure ()
  | reset => exact h.accounts_reset.bind fun _ _ _ => .pure ()
  | deselect => exact (Memory.accounts_clearTransients _ m).bind fun _ _ _ => .pure ()
  | arm bytes => exact .of_exec (exec_arm bytes m) (.nothing ())
  | flip array byte mask =>
    refine .of_exec (exec_flip array byte mask m) ?_
    rw [act, Memory.events_onStore, Act.events_step]
    rcases hf : m.store.flipBits array byte mask with e | s
    · exact .refused ((checks_flipBits _ _ _ _ _ hf).refusal)
    · exact .nothing ()

/-- No operation charges more than the capacity. -/
theorem used_le_act (h : m.Sound c) (hs : m.Settled)
    (hle : m.transaction.log.used ≤ m.transaction.log.max) (op : Operation) :
    (op.act.exec m).2.transaction.log.used ≤ (op.act.exec m).2.transaction.log.max := by
  have hturns := turns_act h hs op
  generalize (op.act.exec m).2.transaction = t at hturns
  cases hturns with
  | kept => exact hle
  | closed => exact UInt32.zero_le
  | opened => exact hle
  | logged _ hlogged =>
    obtain ⟨before, _, _, hlog⟩ := Write.log_logged hlogged
    rw [hlog]
    exact UndoLog.charged_le _ _

end Operation

end SmartCard
