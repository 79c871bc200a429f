-- SUMMARY: The accounts of the commit buffer between commands, and what each logged write takes from it.
import SmartCard.Proofs.Memory.Capacity
import SmartCard.Proofs.Session.Ranges
import SmartCard.Proofs.Session.Rollback

/-!
# The commit buffer in a session

Between commands a card is idle with its whole commit buffer, or a transaction is open whose entries
account for every byte that is not left. A logged write goes through if and only if its entry fits,
and takes the full cost of the entry; nothing else touches the account.
-/

namespace SmartCard

variable {μ : Type} {c : Config} {m : Memory} {w : Write}

/-- The accounts of a memory between commands. -/
structure Memory.Accounted (c : Config) (m : Memory) : Prop where
  state : m.transaction.state = .idle ∨ m.transaction.state = .explicit
  idle : m.transaction.state = .idle →
    m.transaction.log.entries = [] ∧ m.transaction.unusedCapacity = c.commitCapacity
  used_eq : m.transaction.log.used.toNat =
    (m.transaction.log.entries.map fun e => c.commitEntryOverhead.toNat + e.before.length).sum
  used_le : m.transaction.log.used ≤ c.commitCapacity
  unused_eq : m.transaction.unusedCapacity.toNat =
    c.commitCapacity.toNat - m.transaction.log.used.toNat

theorem Memory.Sound.balanced_of_idle (h : m.Sound c) (hidle : m.transaction.isIdle = true) :
    m.transaction.log.Balanced := by
  rw [h.idle_eq hidle]
  exact UndoLog.balanced_empty _ _

theorem Memory.Sound.accounted (h : m.Sound c) (hs : m.Settled)
    (hb : m.transaction.log.Balanced) : m.Accounted c where
  state := by
    rcases hstate : m.transaction.state with _ | _ | _
    · exact .inl rfl
    · exact .inr rfl
    · exact absurd hstate hs
  idle := by
    intro hidle
    have hisIdle : m.transaction.isIdle = true := by
      rw [Transaction.isIdle, hidle]
      rfl
    refine ⟨h.entries_of_idle hisIdle, ?_⟩
    rw [h.idle_eq hisIdle]
    exact UInt32.sub_zero _
  used_eq := by
    rw [hb.used_eq]
    simp only [h.cost_eq]
  used_le := h.max_eq ▸ hb.used_le
  unused_eq := by
    rw [← h.max_eq]
    exact UndoLog.toNat_unused hb.used_le

/-! ## Writes in commands -/

namespace Command

variable [Matcher μ]

omit [Matcher μ] in
theorem Asked.isFilled {s : Session μ} {command : Command μ} {ops : List Operation}
    (h : Asked s command ops) : ∀ op ∈ ops, op.IsFilled := by
  cases h with
  | nothing => exact fun _ hop => nomatch hop
  | @other op hop =>
    intro op' hmem
    rw [List.mem_singleton.mp hmem]
    cases op with
    | write w => exact absurd rfl (hop w)
    | _ => trivial
  | write hw _ =>
    intro op hmem
    rw [List.mem_singleton.mp hmem]
    exact hw
  | counter _ _ hbytes _ =>
    intro op hmem
    rw [List.mem_singleton.mp hmem]
    exact hbytes
  | enrolment _ =>
    intro op hmem
    rcases List.mem_cons.mp hmem with rfl | hmem
    · trivial
    · rw [List.mem_singleton.mp hmem]
      exact nofun

/-- Commands that write ranges of elements, on ranges without any. -/
def WritesNothing (s : Store) : Command μ → Prop
  | .loadElements _ values => values = []
  | .copy _ _ _ length _ _ => length = 0
  | .fill _ _ _ length _ _ => length = 0
  | .clearArray array => ∃ d, s.descriptor? array = some d ∧ d.byteLength = 0
  | _ => False

open AsksFor in
/-- Without anything to write nothing is asked for. -/
theorem request_of_writesNothing {s : Session μ} (h : s.card.memory.store.Sound c)
    {command : Command μ} (hnone : command.WritesNothing s.card.memory.store) :
    AsksFor (· = []) (command.request s) := by
  cases command
  case loadElements array values =>
    cases hnone
    -- An empty list is not too long, so that the array is looked up at once.
    exact checked fun _ _ => made rfl
  case copy p source sourceOffset sourceLength destination destinationOffset =>
    cases hnone
    refine checked fun plan hplan => checked fun bytes hbytes => made ?_
    obtain ⟨x, y, start, count, target, _, _, _, hcount, _, _, _, _, _, hplan⟩ :=
      Range.Copy.plan_eq_ok hplan
    cases hcount
    have hlength := Store.length_of_read hbytes
    rw [hplan] at hlength
    rw [List.length_eq_zero_iff.mp (hlength.trans (Nat.zero_mul _))]
    rfl
  case fill p array offset length valueArray valueOffset =>
    cases hnone
    refine checked fun plan hplan => checked fun element _ => made ?_
    obtain ⟨_, _, _, _, _, _, hcount, _⟩ := Range.Fill.plan_eq_ok hplan
    have hzero : plan.count = 0 := (Option.some.inj hcount).symm
    rw [hzero]
    rfl
  case clearArray array =>
    obtain ⟨d, hd, hsize⟩ := hnone
    refine checked fun cell hcell => ?_
    obtain ⟨found, hfound, rfl⟩ := Table.descriptor?_eq_some_iff.mp hd
    have hcell' := h.cell_iff.mp (sensitiveCell_eq_ok hcell)
    rw [hfound, Option.some.injEq] at hcell'
    dsimp only
    rw [← hcell', if_pos hsize]
    exact made rfl
  all_goals exact hnone.elim

end Command

namespace Session

variable [Matcher μ] {s : Session μ} {command : Command μ}

theorem isRestore_of_mem {step : Memory × Operation} (hmem : step ∈ commandTrace s command) :
    command.isRestore = false := by
  rcases hrestore : command.isRestore with _ | _
  · rfl
  · rw [commandTrace_restore hrestore] at hmem
    cases hmem

/-- The operations of a command that is carried out. -/
theorem Sound.asked_of_mem (h : s.Sound) {step : Memory × Operation}
    (hmem : step ∈ commandTrace s command) :
    ∃ ops, command.request s = .ok ops ∧ Command.Asked s command ops ∧
      step ∈ Operation.trace s.card.memory ops := by
  unfold commandTrace at hmem
  rcases hr : command.request s with e | ops
  · rw [hr] at hmem
    cases hmem
  · rw [hr] at hmem
    exact ⟨ops, rfl, Command.asked_request h.memory.store command ops hr, hmem⟩

/-- A command that logs a write does nothing else, and the write lies within its array. -/
theorem Sound.logged_of_mem (h : s.Sound) (hmem : (m, .write w) ∈ commandTrace s command)
    (hlogs : w.logs m = .ok true) :
    command.request s = .ok [.write w] ∧ m = s.card.memory ∧ w.bytes ≠ [] ∧
      w.InRange s.card.memory.store := by
  obtain ⟨ops, hr, hasked, htrace⟩ := h.asked_of_mem hmem
  have hop := mem_trace htrace
  cases hasked with
  | nothing => cases hop
  | other hother => exact absurd (List.mem_singleton.mp hop).symm (hother w)
  | @write w' hbytes hrange =>
    cases List.mem_singleton.mp hop
    rw [Operation.trace_singleton] at htrace
    exact ⟨hr, (Prod.mk.inj (List.mem_singleton.mp htrace)).1, hbytes, hrange⟩
  | counter => cases List.mem_singleton.mp hop; cases hlogs
  | enrolment =>
    rcases List.mem_cons.mp hop with heq | hop
    · cases heq
    · cases List.mem_singleton.mp hop
      cases hlogs

/-! ## The accounts -/

/-- Commands keep the log balanced. -/
theorem Sound.balanced_step (h : s.Sound) (hb : s.card.memory.transaction.log.Balanced)
    (command : Command μ) :
    (Session.step command s).state.card.memory.transaction.log.Balanced := by
  rcases hrestore : command.isRestore with _ | _
  · rw [h.card_step hrestore]
    rcases hr : command.request s with e | ops
    · exact hb
    · have hfilled := (Command.asked_request h.memory.store command ops hr).isFilled
      exact (Operation.balanced_run hfilled h.memory h.settled hb).1
  · rcases hidle : (Session.step command s).state.card.memory.transaction.isIdle with _ | _
    · rw [card_restore hrestore hidle]
      exact hb
    · exact (h.step command).memory.balanced_of_idle hidle

theorem Reachable.balanced (h : s.Reachable) : s.card.memory.transaction.log.Balanced := by
  induction h with
  | start hnew =>
    have hcard := (sound_start (μ := μ) hnew).memory
    unfold Card.new at hnew
    split at hnew
    · cases hnew
      exact hcard.balanced_of_idle rfl
    · cases hnew
  | step command hprevious ih => exact hprevious.sound.balanced_step ih command

/-- The log is balanced with each operation of a command, too. -/
theorem Sound.balanced_of_mem (h : s.Sound) (hb : s.card.memory.transaction.log.Balanced)
    {op : Operation} (hmem : (m, op) ∈ commandTrace s command) :
    m.Sound s.card.config ∧ m.Settled ∧ m.transaction.log.Balanced := by
  obtain ⟨ops, _, hasked, htrace⟩ := h.asked_of_mem hmem
  exact (Operation.balanced_run hasked.isFilled h.memory h.settled hb).2 htrace

/-- What a command that logs a write does to the commit buffer. -/
theorem Sound.charges_command (h : s.Sound) (hb : s.card.memory.transaction.log.Balanced)
    (hmem : (m, .write w) ∈ commandTrace s command) (hlogs : w.logs m = .ok true) :
    s.card.memory.Charges (s.card.config.commitEntryOverhead.toNat + w.bytes.length)
      ((Session.step command s).result.map fun _ => (),
        (Session.step command s).state.card.memory) := by
  obtain ⟨hr, rfl, _, hrange⟩ := h.logged_of_mem hmem hlogs
  have hrestore := isRestore_of_mem hmem
  rw [h.result_step hrestore, h.card_step hrestore, hr, Operation.carry_ok,
    Operation.run_singleton, ← h.memory.cost_eq]
  exact Write.charges_act hrange h.memory h.settled hlogs hb.used_le

/-- A command that logs nothing and closes no transaction leaves the account as it is. -/
theorem Sound.unused_of_quiet (h : s.Sound) (hrestore : command.isRestore = false)
    (hquiet : ∀ step ∈ commandTrace s command, step.2.IsQuiet step.1)
    (hpower : lostPower (Session.step command s).result = false) :
    (Session.step command s).state.card.unusedCommitCapacityExtended =
      s.card.unusedCommitCapacityExtended := by
  have hresult := h.result_step hrestore
  rw [h.card_step hrestore]
  unfold commandTrace at hquiet
  rcases hr : command.request s with e | ops
  · rfl
  · rw [hr] at hquiet hresult
    rcases Operation.log_run_of_quiet h.memory h.settled hquiet with hlog | ⟨e, he, hloss⟩
    · exact congrArg UndoLog.unused hlog
    · rw [Operation.carry_ok, he] at hresult
      rcases hends : (Session.step command s).result with e' | _
      · rw [hends] at hresult hpower
        cases hresult
        rw [lostPower, hloss] at hpower
        cases hpower
      · rw [hends] at hresult
        cases hresult

theorem Sound.card_of_writesNothing (h : s.Sound)
    (hnone : command.WritesNothing s.card.memory.store) :
    (Session.step command s).state.card = s.card := by
  have hrestore : command.isRestore = false := by
    cases command
    case restore => exact hnone.elim
    all_goals rfl
  rw [h.card_step hrestore]
  rcases hr : command.request s with e | ops
  · rfl
  · cases Command.request_of_writesNothing h.memory.store hnone ops hr
    rfl

/-- The accounts of the commit buffer. Between commands no implicit transaction is open, an idle
card has its whole commit buffer, and what is used is the sum of what the entries of the log cost.
A logged write has bytes to keep; it succeeds if its entry fits into what is left, unless power is
lost, and takes exactly its cost; if it does not fit, the command fails for want of room and leaves
the card idle. Writes that are not logged, and writes without bytes, take nothing. -/
theorem capacity_accounting (hreachable : s.Reachable) :
    s.card.memory.Accounted s.card.config ∧
    (∀ {command m w}, (m, .write w) ∈ commandTrace s command → w.logs m = .ok true →
      0 < w.bytes.length ∧
      (∀ {m' : Memory}, w.logged m = .ok m' → m'.transaction.log.used.toNat =
        m.transaction.log.used.toNat +
          (s.card.config.commitEntryOverhead.toNat + w.bytes.length)) ∧
      s.card.memory.Charges (s.card.config.commitEntryOverhead.toNat + w.bytes.length)
        ((step command s).result.map fun _ => (), (step command s).state.card.memory)) ∧
    (∀ {command : Command μ}, command.isRestore = false →
      (∀ step ∈ commandTrace s command, step.2.IsQuiet step.1) →
      lostPower (step command s).result = false →
      (step command s).state.card.unusedCommitCapacityExtended =
        s.card.unusedCommitCapacityExtended) ∧
    (∀ {command : Command μ}, command.WritesNothing s.card.memory.store →
      (step command s).state.card = s.card) := by
  have h := hreachable.sound
  have hb := hreachable.balanced
  refine ⟨h.memory.accounted h.settled hb, fun hmem hlogs => ⟨?_, fun hlogged => ?_, ?_⟩,
    fun hrestore hquiet hpower => h.unused_of_quiet hrestore hquiet hpower,
    fun hnone => h.card_of_writesNothing hnone⟩
  · exact List.length_pos_iff.mpr (h.logged_of_mem hmem hlogs).2.2.1
  · obtain ⟨_, rfl, _⟩ := h.logged_of_mem hmem hlogs
    obtain ⟨before, hlength, hfits, hlog⟩ := Write.log_logged hlogged
    rw [hlog, ← hlength, ← h.memory.cost_eq]
    exact UndoLog.toNat_charged hb.used_le hfits
  · exact h.charges_command hb hmem hlogs

/-- A short written in an open transaction costs the overhead and two bytes. -/
theorem capacity_accounting_setShort :
    (step (.setShort ⟨1⟩ 2 9) begun).state.card.unusedCommitCapacityExtended.toNat +
      (begun.card.config.commitEntryOverhead.toNat + 2) =
        begun.card.unusedCommitCapacityExtended.toNat := by
  have hreachable : begun.Reachable := (reachable_fresh.run _).step .begin
  have hmem : (begun.card.memory, .write ⟨.participating, ⟨1⟩, 2, [0, 9]⟩) ∈
      commandTrace begun (.setShort ⟨1⟩ 2 9) := .head _
  have hresult : (step (.setShort ⟨1⟩ 2 9) begun).result = .ok (.short 4) := by rfl
  have hopen : begun.card.memory.transaction.isIdle = false := by rfl
  obtain ⟨_, hlogged, _⟩ := capacity_accounting hreachable
  obtain ⟨_, _, hcharges⟩ := hlogged hmem rfl
  rcases hcharges.accepted (by decide +kernel) with ⟨e, he, _⟩ | ⟨_, _, hcharged⟩
  · rw [hresult] at he
    cases he
  · exact hcharged hopen

end Session

end SmartCard
