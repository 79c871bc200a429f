-- SUMMARY: What operations in an open transaction do to its log, and what rolling it back then restores.
import SmartCard.Proofs.Memory.Operations

/-!
# Logging

The ghost state of a transaction is the trace of the operations carried out in it. Its undo log
keeps, for each byte, what the byte was just before the first logged write of the trace that covers
it (`Operation.Logged`). A rollback restores the log onto what the last operation had reached
(`Operation.reached`).
-/

namespace SmartCard

/-- Whether a byte lies in the range of a write. -/
def Write.covers (w : Write) (array : ArrayRef) (i : Nat) : Bool :=
  w.array == array && decide (w.offset ≤ i) && decide (i < w.offset + w.bytes.length)

/-- Whether a write goes through with an undo entry. -/
def Write.isLogged (w : Write) (m : Memory) : Bool :=
  match w.logs m, w.issued m with
  | .ok true, .ok _ => true
  | _, _ => false

theorem Write.covers_iff {w : Write} {array : ArrayRef} {i : Nat} :
    w.covers array i = true ↔ w.array = array ∧ w.offset ≤ i ∧ i < w.offset + w.bytes.length := by
  simp [Write.covers, and_assoc]

theorem Write.isLogged_iff {w : Write} {m : Memory} :
    w.isLogged m = true ↔ w.logs m = .ok true ∧ ∃ m', w.logged m = .ok m' := by
  unfold Write.isLogged
  constructor
  · intro h
    split at h
    next hlogs hissued =>
      rw [Write.issued_of_logged hlogs] at hissued
      exact ⟨hlogs, _, hissued⟩
    next => cases h
  · rintro ⟨hlogs, m', hm'⟩
    rw [← Write.issued_of_logged hlogs] at hm'
    rw [hlogs, hm']

theorem Write.not_logged_of_refused {w : Write} {m : Memory} {e : Fault}
    (h : w.issued m = .error e) :
    w.isLogged m = false := by
  unfold Write.isLogged
  rw [h]
  split
  next heq => cases heq
  next => rfl

theorem Write.not_logged_of_logs {w : Write} {m : Memory} (h : w.logs m = .ok false) :
    w.isLogged m = false := by
  simp only [Write.isLogged, h]

namespace Operation

/-- Whether an operation logs a byte and then writes it. -/
def logsByte (array : ArrayRef) (i : Nat) (m : Memory) : Operation → Bool
  | .write w => w.isLogged m && w.covers array i
  | _ => false

/-- The memory just before the first logged write of a trace that covers a byte. -/
def firstLogged (array : ArrayRef) (i : Nat) (trace : List (Memory × Operation)) : Option Memory :=
  (trace.find? fun step => step.2.logsByte array i step.1).map Prod.fst

/-- What an operation has made of the memory when it rolls back, if it does. A write has then left
in the store what the tear let through. -/
def reached (m : Memory) : Operation → Memory
  | .write w =>
    match w.issued m with
    | .ok m' => w.stored m'
    | .error _ => m
  | .abort => m
  | .reset => m
  | op => (op.act.exec m).2

/-- The log of a memory keeps what the trace of its transaction found. -/
structure Logged (trace : List (Memory × Operation)) (m : Memory) : Prop where
  kept : ∀ array i, UndoLog.kept? array i m.transaction.log.entries =
    (firstLogged array i trace).bind fun found => found.store.byte? array i
  found : ∀ {array i found}, firstLogged array i trace = some found →
    (found.store.byte? array i).isSome

variable {c : Config} {m m' : Memory} {trace : List (Memory × Operation)}

/-! ## Traces -/

theorem firstLogged_append (array : ArrayRef) (i : Nat) (trace : List (Memory × Operation))
    (m : Memory) (op : Operation) :
    firstLogged array i (trace ++ [(m, op)]) =
      (firstLogged array i trace).or (if op.logsByte array i m then some m else none) := by
  unfold firstLogged
  rw [List.find?_append, Option.map_or]
  congr 1
  rw [List.find?_singleton]
  split <;> simp_all

/-- A new log keeps nothing, and the trace of a new transaction is empty. -/
theorem Logged.nil (h : m.transaction.log.entries = []) : Logged [] m where
  kept := by
    intro array i
    rw [h]
    rfl
  found := by
    intro array i found hfound
    cases hfound

theorem Logged.of_unlogged (h : Logged trace m) {op : Operation}
    (hop : ∀ array i, op.logsByte array i m = false)
    (hentries : m'.transaction.log.entries = m.transaction.log.entries) :
    Logged (trace ++ [(m, op)]) m' where
  kept := by
    intro array i
    rw [hentries, h.kept, firstLogged_append, hop]
    simp
  found := by
    intro array i found hfound
    rw [firstLogged_append, hop, if_neg Bool.false_ne_true, Option.or_none] at hfound
    exact h.found hfound

/-- The entry of a logged write counts for the bytes that no older entry covers. -/
theorem Logged.of_logged (h : Logged trace m) {w : Write} (hw : w.isLogged m = true)
    {before : List UInt8} (hread : m.store.read w.array w.offset w.bytes.length = .ok before)
    (hentries : m'.transaction.log.entries =
      ⟨w.array, w.offset, before⟩ :: m.transaction.log.entries) :
    Logged (trace ++ [(m, .write w)]) m' := by
  have hlength : before.length = w.bytes.length := Store.length_of_read hread
  have hcovers {array : ArrayRef} {i : Nat} :
      UndoEntry.Covers ⟨w.array, w.offset, before⟩ array i ↔ w.covers array i = true := by
    rw [Write.covers_iff, ← hlength]
    rfl
  have hbyte {array : ArrayRef} {i : Nat} (hcover : w.covers array i = true) :
      before[i - w.offset]? = m.store.byte? array i := by
    obtain ⟨rfl, hlow, hhigh⟩ := Write.covers_iff.mp hcover
    exact Store.getElem?_of_read hread hlow hhigh
  have hsome {array : ArrayRef} {i : Nat} (hcover : w.covers array i = true) :
      (m.store.byte? array i).isSome := by
    rw [← hbyte hcover]
    exact (hcovers.mpr hcover).isSome
  constructor
  · intro array i
    rw [hentries, firstLogged_append]
    by_cases hcover : w.covers array i = true
    · rw [UndoLog.kept?_of_covers (hcovers.mpr hcover), h.kept]
      rw [if_pos (by rw [logsByte, hw, hcover]; rfl)]
      rcases hfirst : firstLogged array i trace with _ | found
      · simp [hbyte hcover]
      · rw [Option.bind_some, Option.or_of_isSome (h.found hfirst)]
        rfl
    · rw [UndoLog.kept?_of_not_covers (mt hcovers.mp hcover), h.kept,
        if_neg (by rw [logsByte, Bool.and_eq_true]; exact fun hc => hcover hc.2), Option.or_none]
  · intro array i found hfound
    rw [firstLogged_append] at hfound
    rcases hfirst : firstLogged array i trace with _ | found'
    · rw [hfirst, Option.none_or] at hfound
      split at hfound
      next hlogs =>
        rw [Option.some.injEq] at hfound
        subst hfound
        rw [logsByte, Bool.and_eq_true] at hlogs
        exact hsome hlogs.2
      next => cases hfound
    · rw [hfirst, Option.some_or, Option.some.injEq] at hfound
      subst hfound
      exact h.found hfirst

/-! ## Steps of an open transaction -/

theorem reached_of_issued {w : Write} (hm : w.issued m = .ok m') :
    reached m (.write w) = w.stored m' := by
  simp only [reached, hm]

theorem reached_of_refused {w : Write} {e : Fault} (hm : w.issued m = .error e) :
    reached m (.write w) = m := by
  simp only [reached, hm]

theorem sound_reached (h : m.Sound c) (hs : m.Settled) (op : Operation) :
    (reached m op).Sound c := by
  have hact := sound_act h hs op
  cases op with
  | write w =>
    rcases hissued : w.issued m with e | m'
    · rw [reached_of_refused hissued]
      exact h
    · rw [reached_of_issued hissued]
      exact Write.sound_stored (Write.sound_issued h hissued)
  | abort => exact h
  | reset => exact h
  | begin => exact hact
  | commit => exact hact
  | allocate d => exact hact
  | deselect => exact hact
  | arm bytes => exact hact
  | flip array byte mask => exact hact

/-- Operations on the store alone leave the transaction as it is. -/
theorem transaction_allocate (d : Descriptor) (m : Memory) :
    ((act (.allocate d)).exec m).2.transaction = m.transaction := by
  rw [exec_allocate]
  rcases m.store.allocate d with _ | ⟨_, _⟩ <;> rfl

theorem transaction_flip (array : ArrayRef) (byte : Nat) (mask : UInt8) (m : Memory) :
    ((act (.flip array byte mask)).exec m).2.transaction = m.transaction := by
  rw [exec_flip]
  rcases m.store.flipBits array byte mask with _ | _ <;> rfl

/-- The log goes with the trace up to what an operation has reached. -/
theorem Logged.reached (h : Logged trace m) (hopen : m.transaction.isIdle = false) {op : Operation}
    (hop : op ≠ .commit) : Logged (trace ++ [(m, op)]) (reached m op) := by
  cases op with
  | write w =>
    rcases hissued : w.issued m with e | m'
    · rw [reached_of_refused hissued]
      have hunlogged := Write.not_logged_of_refused hissued
      exact h.of_unlogged (fun _ _ => by rw [logsByte, hunlogged]; rfl) rfl
    · rw [reached_of_issued hissued]
      rcases Write.issued_cases hissued with ⟨hlogs, rfl⟩ | ⟨hlogs, hlogged⟩
      · exact h.of_unlogged (fun _ _ => by rw [logsByte, Write.not_logged_of_logs hlogs]; rfl) rfl
      · obtain ⟨before, hread, _, _, hentries⟩ := Write.entries_logged hlogged
        exact h.of_logged (Write.isLogged_iff.mpr ⟨hlogs, m', hlogged⟩) hread hentries
  | begin =>
    refine h.of_unlogged (fun _ _ => rfl) ?_
    show (Memory.begin.exec m).2.transaction.log.entries = _
    rw [Memory.exec_begin, if_neg (by rw [hopen]; exact Bool.false_ne_true)]
  | commit => exact absurd rfl hop
  | abort => exact h.of_unlogged (fun _ _ => rfl) rfl
  | reset => exact h.of_unlogged (fun _ _ => rfl) rfl
  | allocate d =>
    refine h.of_unlogged (fun _ _ => rfl) ?_
    show ((act (.allocate d)).exec m).2.transaction.log.entries = _
    rw [transaction_allocate]
  | deselect => exact h.of_unlogged (fun _ _ => rfl) rfl
  | arm bytes => exact h.of_unlogged (fun _ _ => rfl) rfl
  | flip array byte mask =>
    refine h.of_unlogged (fun _ _ => rfl) ?_
    show ((act (.flip array byte mask)).exec m).2.transaction.log.entries = _
    rw [transaction_flip]

/-- How an operation in an open transaction ends: the transaction is still open and nothing was
undone, or it is closed and everything was. -/
theorem act_of_open (h : m.Sound c) (hs : m.Settled) (hopen : m.transaction.isIdle = false)
    {op : Operation} (hop : op ≠ .commit) :
    ((op.act.exec m).2.transaction.isIdle = false ∧ (op.act.exec m).2 = reached m op) ∨
      ((op.act.exec m).2.transaction.isIdle = true ∧
        (op.act.exec m).2.store.descriptor? = (reached m op).store.descriptor? ∧
        ∀ {array}, (reached m op).store.IsPersistent array → ∀ i,
          (op.act.exec m).2.store.byte? array i = (reached m op).undone.byte? array i) := by
  cases op with
  | write w =>
    rw [act, Write.exec_act h hs w]
    rcases hissued : w.issued m with e | m'
    · rw [reached_of_refused hissued, Write.ending]
      dsimp only
      split
      · exact .inr ⟨rfl, h.descriptor?_undone, fun _ _ => rfl⟩
      · exact .inl ⟨hopen, rfl⟩
    · have hm' := Write.sound_issued h hissued
      have hstored := Write.sound_stored (w := w) hm'
      have hm'open := Write.isIdle_issued hopen hissued
      have hm'settled : m'.Settled := Write.settled_issued hs hopen hissued
      have hsettled : (w.stored m').settled = w.stored m' := Write.settled_eq hm'settled
      rw [reached_of_issued hissued, Write.ending, Write.concluded]
      rcases w.answer m' with e | _
      · dsimp only
        split
        · right
          rw [Write.settled_eq (Memory.settled_of_idle rfl)]
          exact ⟨rfl, (Store.descriptor?_clearTransients _ _).trans hstored.descriptor?_undone,
            fun hp i => hstored.byte?_recovered hp i⟩
        · rw [hsettled]
          exact .inl ⟨hm'open, rfl⟩
      · dsimp only
        rw [hsettled]
        exact .inl ⟨hm'open, rfl⟩
  | begin =>
    left
    refine ⟨?_, rfl⟩
    rw [act, Memory.exec_begin, if_neg (by rw [hopen]; exact Bool.false_ne_true)]
    exact hopen
  | commit => exact absurd rfl hop
  | abort =>
    right
    rw [act, h.exec_abort, if_neg (by rw [hopen]; exact Bool.false_ne_true)]
    exact ⟨rfl, h.descriptor?_undone, fun _ _ => rfl⟩
  | reset =>
    right
    rw [exec_reset h]
    refine ⟨rfl, ?_, fun hp i => h.byte?_wasReset hp i⟩
    exact (Store.descriptor?_clearTransients _ _).trans h.descriptor?_undone
  | allocate d =>
    left
    exact ⟨by rw [transaction_allocate]; exact hopen, rfl⟩
  | deselect => exact .inl ⟨hopen, rfl⟩
  | arm bytes => exact .inl ⟨hopen, rfl⟩
  | flip array byte mask =>
    left
    exact ⟨by rw [transaction_flip]; exact hopen, rfl⟩

/-! ## Runs of an open transaction -/

/-- The operations of a trace lead from one memory to another, whether they succeed or not. -/
inductive Steps : Memory → List (Memory × Operation) → Memory → Prop where
  | nil {m : Memory} : Steps m [] m
  | cons {m m' : Memory} {op : Operation} {trace : List (Memory × Operation)} :
      Steps (op.act.exec m).2 trace m' → Steps m ((m, op) :: trace) m'

theorem Steps.append {m₁ m₂ m₃ : Memory} {before after : List (Memory × Operation)}
    (hbefore : Steps m₁ before m₂) (hafter : Steps m₂ after m₃) :
    Steps m₁ (before ++ after) m₃ := by
  induction hbefore with
  | nil => exact hafter
  | cons _ ih => exact .cons (ih hafter)

theorem steps_run (m : Memory) (ops : List Operation) :
    Steps m (Operation.trace m ops) (run m ops).2 := by
  induction ops generalizing m with
  | nil => exact .nil
  | cons op more ih =>
    rw [Operation.trace, run]
    refine .cons ?_
    rcases op.act.exec m with ⟨_ | _, m'⟩
    · exact .nil
    · exact ih m'

/-- The last step of a trace leads to the end of it. -/
theorem Steps.last {m₁ m₂ : Memory} {op : Operation} (h : Steps m₁ (trace ++ [(m, op)]) m₂) :
    Steps m₁ trace m ∧ m₂ = (op.act.exec m).2 := by
  induction trace generalizing m₁ with
  | nil =>
    cases h with
    | cons hrest =>
      cases hrest
      exact ⟨.nil, rfl⟩
  | cons step rest ih =>
    cases h with
    | cons hrest => exact ⟨.cons (ih hrest).1, (ih hrest).2⟩

theorem Steps.sound (h : Steps m trace m') (hm : m.Sound c) (hs : m.Settled) :
    m'.Sound c ∧ m'.Settled := by
  induction h with
  | nil => exact ⟨hm, hs⟩
  | cons _ ih => exact ih (sound_act hm hs _) (settled_act hm hs _)

/-- Whether every operation of a trace finds a transaction open. -/
def AllOpen (trace : List (Memory × Operation)) : Prop :=
  ∀ step ∈ trace, step.1.transaction.isIdle = false

theorem allOpen_nil : AllOpen [] := fun _ hstep => (List.not_mem_nil hstep).elim

theorem Steps.isIdle_start (h : Steps m trace m') (hopen : AllOpen trace)
    (hend : m'.transaction.isIdle = false) : m.transaction.isIdle = false := by
  cases h with
  | nil => exact hend
  | cons _ => exact hopen _ List.mem_cons_self

/-- A commit leaves no transaction open. -/
theorem ne_commit_of_open {op : Operation} (hopen : m.transaction.isIdle = false)
    (hnext : (op.act.exec m).2.transaction.isIdle = false) : op ≠ .commit := by
  rintro rfl
  rw [act, Memory.exec_commit, hopen] at hnext
  cases hnext

/-- While the transaction stays open its log goes with its trace. -/
theorem Steps.logged {earlier : List (Memory × Operation)} (h : Steps m trace m') (hm : m.Sound c)
    (hs : m.Settled) (hopen : AllOpen trace) (hend : m'.transaction.isIdle = false)
    (hlog : Logged earlier m) : Logged (earlier ++ trace) m' := by
  induction h generalizing earlier with
  | nil =>
    rw [List.append_nil]
    exact hlog
  | @cons m m' op trace hrest ih =>
    have hnow : m.transaction.isIdle = false := hopen _ List.mem_cons_self
    have hlater : AllOpen trace := fun step hstep => hopen step (List.mem_cons_of_mem _ hstep)
    have hnext := hrest.isIdle_start hlater hend
    have hop := ne_commit_of_open hnow hnext
    have hlogged := hlog.reached hnow hop
    rcases act_of_open hm hs hnow hop with ⟨_, heq⟩ | ⟨hidle, _⟩
    · rw [← heq] at hlogged
      have hall := ih (sound_act hm hs op) (settled_act hm hs op) hlater hend hlogged
      rwa [List.append_assoc] at hall
    · rw [hidle] at hnext
      cases hnext

/-- What the last operation of a trace has reached. -/
def lastReached (trace : List (Memory × Operation)) : Option Memory :=
  trace.getLast?.map fun step => reached step.1 step.2

/-- A byte after the rollback of a transaction that has a trace. -/
def rolledBackByte (trace : List (Memory × Operation)) (array : ArrayRef) (i : Nat) :
    Option UInt8 :=
  match firstLogged array i trace with
  | some found => found.store.byte? array i
  | none => (lastReached trace).bind fun last => last.store.byte? array i

/-- The operation that closes a transaction, other than a commit, gives each byte back. -/
theorem Logged.rolledBack {m₀ : Memory} {op : Operation} (h : Logged trace m) (hm : m.Sound c)
    (hs : m.Settled) (hopen : m.transaction.isIdle = false) (hop : op ≠ .commit)
    (hend : m₀ = (op.act.exec m).2) (hidle : m₀.transaction.isIdle = true) :
    m₀.store.descriptor? = (Operation.reached m op).store.descriptor? ∧
      ∀ {array}, (Operation.reached m op).store.IsPersistent array → ∀ i,
        m₀.store.byte? array i = rolledBackByte (trace ++ [(m, op)]) array i := by
  subst hend
  rcases act_of_open hm hs hopen hop with ⟨hstill, _⟩ | ⟨_, hd, hbyte⟩
  · rw [hstill] at hidle
    cases hidle
  · refine ⟨hd, fun hp i => ?_⟩
    have hreached := h.reached hopen hop
    rw [hbyte hp, (sound_reached hm hs op).byte?_undone, hreached.kept]
    unfold rolledBackByte lastReached
    rw [List.getLast?_append]
    rcases hfirst : firstLogged _ i (trace ++ [(m, op)]) with _ | found
    · rfl
    · dsimp only
      rw [Option.bind_some, Option.or_of_isSome (hreached.found hfirst)]

/-- A transaction that is closed without a commit gives each byte back. -/
theorem Steps.rolledBack (h : Steps m trace m') (hm : m.Sound c) (hs : m.Settled)
    (hlog : m.transaction.log.entries = []) (hnow : m.transaction.isIdle = false)
    (hopen : AllOpen trace)
    (hop : ∀ step ∈ trace, step.2 ≠ .commit) (hidle : m'.transaction.isIdle = true)
    {array : ArrayRef} (hp : m'.store.IsPersistent array) (i : Nat) :
    m'.store.byte? array i = rolledBackByte trace array i := by
  rcases List.eq_nil_or_concat trace with rfl | ⟨before, ⟨m₁, op⟩, rfl⟩
  · cases h
    rw [hnow] at hidle
    cases hidle
  · rw [List.concat_eq_append] at h hopen hop ⊢
    obtain ⟨hbefore, hlast⟩ := h.last
    have hallbefore : AllOpen before := fun step hstep => hopen step (List.mem_append_left _ hstep)
    have hmem : (m₁, op) ∈ before ++ [(m₁, op)] := List.mem_append_right _ List.mem_cons_self
    obtain ⟨hm₁, hs₁⟩ := hbefore.sound hm hs
    have hlogged := hbefore.logged hm hs hallbefore (hopen _ hmem) (.nil hlog)
    obtain ⟨hd, hbyte⟩ := hlogged.rolledBack hm₁ hs₁ (hopen _ hmem) (hop _ hmem) hlast hidle
    refine hbyte ?_ i
    unfold Store.IsPersistent
    rw [← hd]
    exact hp

end Operation

end SmartCard
