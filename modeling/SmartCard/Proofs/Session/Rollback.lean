-- SUMMARY: The rollback law: what a rollback leaves in each byte of persistent memory, whatever came before it.
import SmartCard.Proofs.Memory.Undoable
import SmartCard.Proofs.Session.Reachable

/-!
# The rollback law

A transaction is followed from the command that begins it, through any commands that leave it open,
to the command that closes it. Unless that is a commit, each byte of a persistent array is back to
what it was before the first logged write that covered it, and is left alone if there was none.
-/

namespace SmartCard

variable {μ : Type}

open Operation

/-! ## The shape of requests -/

/-- What a command other than a commit may ask: nothing, one operation, or an array with a first
write. -/
inductive Brief : List Operation → Prop where
  | nothing : Brief []
  | one {op : Operation} : op ≠ .commit → Brief [op]
  | enrolment {d : Descriptor} {w : Write} : Brief [.allocate d, .write w]

open AsksFor in
theorem Command.brief_request [Matcher μ] (s : Session μ) {c : Command μ} (hc : c ≠ .commit) :
    AsksFor Brief (c.request s) := by
  have hwrite : ∀ w : Write, Brief [.write w] := fun _ => .one nofun
  have hquery := query Brief.nothing ((Session.perform c).exec s).1
  cases c
  case commit => exact absurd rfl hc
  case begin => exact made (.one nofun)
  case abort => exact made (.one nofun)
  case reset => exact made (.one nofun)
  case deselect => exact made (.one nofun)
  case injectPowerLoss => exact made (.one nofun)
  case injectBitFlip => exact made (.one nofun)
  case makePersistent => exact checked fun _ _ => made (.one nofun)
  case makeTransient kind length event =>
    unfold request
    dsimp only
    split
    · exact refused _
    · exact either (checked fun _ _ => made (.one nofun)) (refused _)
  case makeSensitive => exact checked fun _ _ => made (.one nofun)
  case setElement => exact checked fun _ _ => made (hwrite _)
  case loadElements => exact either (refused _) (checked fun _ _ => writeUnless .nothing (hwrite _))
  case copy => exact checked fun _ _ => checked fun _ _ => writeUnless .nothing (hwrite _)
  case fill => exact checked fun _ _ => checked fun _ _ => writeUnless .nothing (hwrite _)
  case setShort => exact checked fun _ _ => made (hwrite _)
  case setInt => exact checked fun _ _ => made (hwrite _)
  case clearArray => exact checked fun _ _ => writeUnless .nothing (hwrite _)
  case makeTemplate => exact checked fun _ _ => checked fun _ _ => made .enrolment
  case templateInitMatch =>
    exact .onTemplate fun _ _ => checked fun _ _ => checked fun _ _ =>
      either (made .nothing) (.settling .nothing (fun w _ => hwrite w) _ _)
  case templateMatch =>
    exact .onTemplate fun _ _ => either (.settling .nothing (fun w _ => hwrite w) _ _) (refused _)
  case templateResetTryLimit => exact .onTemplate fun _ _ => checked fun _ _ => made (hwrite _)
  all_goals exact hquery

namespace Command

/-- Whether a command may come down to an operation. All operations but new arrays and writes have a
command of their own. -/
inductive Yields : Command μ → Operation → Prop where
  | begin : Yields .begin .begin
  | commit : Yields .commit .commit
  | abort : Yields .abort .abort
  | reset : Yields .reset .reset
  | deselect : Yields .deselect .deselect
  | arm {bytes : UInt64} : Yields (.injectPowerLoss bytes) (.arm bytes)
  | flip {array : ArrayRef} {byte : Nat} {mask : UInt8} :
      Yields (.injectBitFlip array byte mask) (.flip array byte mask)
  | allocate {c : Command μ} {d : Descriptor} : Yields c (.allocate d)
  | write {c : Command μ} {w : Write} : Yields c (.write w)

/-- Whether a command may come down to each of several operations. -/
def YieldsAll (c : Command μ) (ops : List Operation) : Prop := ∀ op ∈ ops, c.Yields op

open AsksFor in
theorem yields_request [Matcher μ] (s : Session μ) (c : Command μ) :
    AsksFor c.YieldsAll (c.request s) := by
  have hnil : c.YieldsAll [] := nofun
  have hone : ∀ {op : Operation}, c.Yields op → c.YieldsAll [op] := by
    intro op hop op' hmem
    rw [List.mem_singleton.mp hmem]
    exact hop
  have hwrite : ∀ w : Write, c.YieldsAll [.write w] := fun _ => hone .write
  have hquery := query hnil ((Session.perform c).exec s).1
  cases c
  case begin => exact made (hone .begin)
  case commit => exact made (hone .commit)
  case abort => exact made (hone .abort)
  case reset => exact made (hone .reset)
  case deselect => exact made (hone .deselect)
  case injectPowerLoss => exact made (hone .arm)
  case injectBitFlip => exact made (hone .flip)
  case makePersistent => exact checked fun _ _ => made (hone .allocate)
  case makeTransient kind length event =>
    unfold request
    dsimp only
    split
    · exact refused _
    · exact either (checked fun _ _ => made (hone .allocate)) (refused _)
  case makeSensitive => exact checked fun _ _ => made (hone .allocate)
  case setElement => exact checked fun _ _ => made (hwrite _)
  case loadElements => exact either (refused _) (checked fun _ _ => writeUnless hnil (hwrite _))
  case copy => exact checked fun _ _ => checked fun _ _ => writeUnless hnil (hwrite _)
  case fill => exact checked fun _ _ => checked fun _ _ => writeUnless hnil (hwrite _)
  case setShort => exact checked fun _ _ => made (hwrite _)
  case setInt => exact checked fun _ _ => made (hwrite _)
  case clearArray => exact checked fun _ _ => writeUnless hnil (hwrite _)
  case makeTemplate =>
    refine checked fun _ _ => checked fun _ _ => made ?_
    exact List.forall_mem_cons.mpr ⟨.allocate, hwrite _⟩
  case templateInitMatch =>
    exact .onTemplate fun _ _ => checked fun _ _ => checked fun _ _ =>
      either (made hnil) (.settling hnil (fun w _ => hwrite w) _ _)
  case templateMatch =>
    exact .onTemplate fun _ _ => either (.settling hnil (fun w _ => hwrite w) _ _) (refused _)
  case templateResetTryLimit => exact .onTemplate fun _ _ => checked fun _ _ => made (hwrite _)
  all_goals exact hquery

end Command

namespace Session

variable [Matcher μ]

/-! ## Traces of commands -/

/-- The operations that a command carries out. -/
def commandTrace (s : Session μ) (c : Command μ) : List (Memory × Operation) :=
  match c.request s with
  | .ok ops => Operation.trace s.card.memory ops
  | .error _ => []

/-- The operations that commands carry out, one command after the other. -/
def trace (s : Session μ) : List (Command μ) → List (Memory × Operation)
  | [] => []
  | c :: more => commandTrace s c ++ trace (step c s).state more

/-- Whether a transaction is open now and after each of the commands. -/
def staysOpen (s : Session μ) : List (Command μ) → Bool
  | [] => s.card.transactionDepth == 1
  | c :: more => s.card.transactionDepth == 1 && staysOpen (step c s).state more

omit [Matcher μ] in
theorem depth_eq_one_iff {s : Session μ} :
    (s.card.transactionDepth == 1) = true ↔ s.card.memory.transaction.isIdle = false := by
  unfold Card.transactionDepth Transaction.depth
  rcases s.card.memory.transaction.isIdle with _ | _ <;> decide

omit [Matcher μ] in
theorem depth_eq_zero_iff {s : Session μ} :
    s.card.transactionDepth = 0 ↔ s.card.memory.transaction.isIdle = true := by
  unfold Card.transactionDepth Transaction.depth
  rcases s.card.memory.transaction.isIdle with _ | _ <;> decide

theorem trace_singleton (s : Session μ) (c : Command μ) : trace s [c] = commandTrace s c :=
  List.append_nil _

theorem trace_append (s : Session μ) (cs cs' : List (Command μ)) :
    trace s (cs ++ cs') = trace s cs ++ trace (run s cs).2 cs' := by
  induction cs generalizing s with
  | nil => rfl
  | cons first more ih =>
    show commandTrace s first ++ trace (step first s).state (more ++ cs') = _
    rw [ih, ← List.append_assoc]
    rfl

theorem trace_concat (s : Session μ) (cs : List (Command μ)) (c : Command μ) :
    trace s (cs ++ [c]) = trace s cs ++ commandTrace (run s cs).2 c := by
  rw [trace_append, trace_singleton]

/-- A restoration that fails leaves the card alone, and one that succeeds leaves no transaction
open. -/
theorem card_restore {s : Session μ} {c : Command μ} (hc : c.isRestore = true)
    (hopen : (step c s).state.card.memory.transaction.isIdle = false) :
    (step c s).state.card = s.card := by
  cases c
  case restore config bytes =>
    rw [card_step_restore] at hopen ⊢
    rcases card_restored config bytes s.card with hsame | ⟨_, image, m, hm, hup⟩
    · exact hsame
    · obtain ⟨_, _, _, _, _, rfl⟩ := Image.powerUp_eq_ok_iff.mp hm
      rw [hup] at hopen
      cases hopen
  all_goals cases hc

theorem mem_trace {m : Memory} {ops : List Operation} {step : Memory × Operation}
    (h : step ∈ Operation.trace m ops) : step.2 ∈ ops := by
  induction ops generalizing m with
  | nil => cases h
  | cons op more ih =>
    rw [Operation.trace] at h
    rcases List.mem_cons.mp h with rfl | hrest
    · exact List.mem_cons_self
    · rcases hexec : op.act.exec m with ⟨_ | _, m'⟩
      · rw [hexec] at hrest
        cases hrest
      · rw [hexec] at hrest
        exact List.mem_cons_of_mem _ (ih hrest)

/-- A command in an open transaction finds it open with each of its operations. -/
theorem allOpen_commandTrace {s : Session μ} {c : Command μ} (hc : c ≠ .commit)
    (hopen : s.card.memory.transaction.isIdle = false) : AllOpen (commandTrace s c) := by
  unfold commandTrace
  rcases hr : c.request s with e | ops
  · intro step hstep
    cases hstep
  · dsimp only
    cases Command.brief_request s hc ops hr with
    | nothing =>
      intro step hstep
      cases hstep
    | @one op _ =>
      intro step hstep
      rw [Operation.trace] at hstep
      rcases List.mem_cons.mp hstep with rfl | hrest
      · exact hopen
      · generalize op.act.exec s.card.memory = r at hrest
        rcases r with ⟨_ | _, m'⟩ <;> cases hrest
    | @enrolment d w =>
      intro step hstep
      rw [Operation.trace] at hstep
      rcases List.mem_cons.mp hstep with rfl | hrest
      · exact hopen
      · have htransaction := transaction_allocate d s.card.memory
        generalize (act (.allocate d)).exec s.card.memory = r at hrest htransaction
        rcases r with ⟨_ | _, m'⟩
        · cases hrest
        · dsimp only at hrest htransaction
          rw [Operation.trace] at hrest
          rcases List.mem_cons.mp hrest with rfl | hrest
          · rw [htransaction]
            exact hopen
          · generalize (act (.write w)).exec m' = r at hrest
            rcases r with ⟨_ | _, _⟩ <;> cases hrest

theorem ne_commit_commandTrace {s : Session μ} {c : Command μ} (hc : c ≠ .commit) :
    ∀ step ∈ commandTrace s c, step.2 ≠ .commit := by
  intro step hstep
  unfold commandTrace at hstep
  rcases hr : c.request s with e | ops
  · rw [hr] at hstep
    cases hstep
  · rw [hr] at hstep
    have hmem := mem_trace hstep
    cases Command.brief_request s hc ops hr with
    | nothing => cases hmem
    | one hop =>
      rw [List.mem_singleton.mp hmem]
      exact hop
    | enrolment =>
      rcases List.mem_cons.mp hmem with heq | hrest
      · rw [heq]
        nofun
      · rw [List.mem_singleton.mp hrest]
        nofun

/-- The operations of a command lead to the memory it leaves behind. -/
theorem Sound.steps_command {s : Session μ} (h : s.Sound) {c : Command μ}
    (hc : c.isRestore = false) :
    Steps s.card.memory (commandTrace s c) (Session.step c s).state.card.memory := by
  rw [h.card_step hc]
  unfold commandTrace
  rcases c.request s with e | ops
  · exact .nil
  · exact steps_run s.card.memory ops

theorem commandTrace_restore {s : Session μ} {c : Command μ} (hc : c.isRestore = true) :
    commandTrace s c = [] := by
  cases c
  case restore config bytes =>
    show (match ((perform (.restore config bytes)).exec s).1.map fun _ => ([] : List Operation) with
      | .ok ops => Operation.trace s.card.memory ops
      | .error _ => []) = []
    rcases ((perform (.restore config bytes)).exec s).1 with _ | _ <;> rfl
  all_goals cases hc

/-- One command that leaves the transaction open. -/
theorem Sound.steps_open {s : Session μ} (h : s.Sound) {c : Command μ}
    (hnow : s.card.memory.transaction.isIdle = false)
    (hnext : (Session.step c s).state.card.memory.transaction.isIdle = false) :
    Steps s.card.memory (commandTrace s c) (Session.step c s).state.card.memory ∧
      AllOpen (commandTrace s c) ∧ ∀ step ∈ commandTrace s c, step.2 ≠ .commit := by
  rcases hrestore : c.isRestore with _ | _
  · have hc : c ≠ .commit := by
      rintro rfl
      rw [h.card_step hrestore] at hnext
      have hopen : ((act .commit).exec s.card.memory).2.transaction.isIdle = false := by
        rw [← run_singleton]
        exact hnext
      exact ne_commit_of_open hnow hopen rfl
    exact ⟨h.steps_command hrestore, allOpen_commandTrace hc hnow, ne_commit_commandTrace hc⟩
  · rw [commandTrace_restore hrestore, card_restore hrestore hnext]
    exact ⟨.nil, allOpen_nil, fun _ hstep => (List.not_mem_nil hstep).elim⟩

/-- Commands that leave the transaction open. -/
theorem Sound.steps_staysOpen {s : Session μ} (h : s.Sound) {cs : List (Command μ)}
    (hopen : staysOpen s cs = true) :
    Steps s.card.memory (trace s cs) (run s cs).2.card.memory ∧ AllOpen (trace s cs) ∧
      (∀ step ∈ trace s cs, step.2 ≠ .commit) ∧
      (run s cs).2.card.memory.transaction.isIdle = false := by
  induction cs generalizing s with
  | nil =>
    exact ⟨.nil, allOpen_nil, fun _ hstep => (List.not_mem_nil hstep).elim,
      depth_eq_one_iff.mp hopen⟩
  | cons c more ih =>
    obtain ⟨hnow, hlater⟩ := Bool.and_eq_true_iff.mp hopen
    have hnext : (Session.step c s).state.card.memory.transaction.isIdle = false := by
      cases more with
      | nil => exact depth_eq_one_iff.mp hlater
      | cons _ _ => exact depth_eq_one_iff.mp (Bool.and_eq_true_iff.mp hlater).1
    obtain ⟨hsteps, hall, hcommit⟩ := h.steps_open (depth_eq_one_iff.mp hnow) hnext
    obtain ⟨hsteps', hall', hcommit', hend⟩ := ih (h.step c) hlater
    refine ⟨hsteps.append hsteps', ?_, ?_, hend⟩
    · intro step hstep
      exact (List.mem_append.mp hstep).elim (hall step) (hall' step)
    · intro step hstep
      exact (List.mem_append.mp hstep).elim (hcommit step) (hcommit' step)

/-- What beginning a transaction does. -/
theorem Sound.begin {s : Session μ} (h : s.Sound)
    (hbegin : (Session.step .begin s).result = .ok .done) :
    (Session.step .begin s).state.card.memory.transaction.log.entries = [] ∧
      (Session.step .begin s).state.card.memory.store = s.card.memory.store := by
  have hresult := h.result_step (c := .begin) rfl
  have hcard := h.card_step (c := .begin) rfl
  rw [hbegin] at hresult
  rw [hcard]
  have hrun : Operation.carry s.card.memory (Command.request s .begin) =
      Memory.begin.exec s.card.memory :=
    run_singleton s.card.memory .begin
  rw [hrun, Memory.exec_begin] at hresult ⊢
  by_cases hidle : s.card.memory.transaction.isIdle = true
  · rw [if_pos hidle]
    exact ⟨h.memory.entries_of_idle hidle, rfl⟩
  · rw [if_neg hidle] at hresult
    cases hresult

/-! ## The law -/

/-- The rollback law. A transaction is begun and stays open through `cs`; then `c` closes it without
a commit: by an abort, a reset, an overflow of the commit buffer, or a loss of power at any byte.
Then each byte of a persistent array is what it was before the first logged write that covered it,
or else what it was just before the rollback. If every write to a persistent array was logged and
none had bits flipped, then the persistent arrays are what they were at the beginning, and new ones
are zero. -/
theorem rollback_law {s₀ s s' : Session μ} (hreachable : Reachable s₀)
    (hbegin : (step .begin s₀).result = .ok .done) (hs : s = (step .begin s₀).state)
    {cs : List (Command μ)} (hopen : staysOpen s cs = true) {c : Command μ} (hcommit : c ≠ .commit)
    (hrestore : c.isRestore = false) (hs' : s' = (step c (run s cs).2).state)
    (hclosed : s'.card.transactionDepth = 0) :
    (∀ {array}, s'.card.memory.store.IsPersistent array → ∀ i,
      s'.card.memory.store.byte? array i = rolledBackByte (trace s (cs ++ [c])) array i) ∧
    ((∀ step ∈ trace s (cs ++ [c]), step.2.Undoable step.1) →
      ∀ {array}, s'.card.memory.store.IsPersistent array →
        (s₀.card.memory.store.IsPersistent array → ∀ i,
          s'.card.memory.store.byte? array i = s₀.card.memory.store.byte? array i) ∧
        (s₀.card.memory.store.descriptor? array = none → ∀ {i b},
          s'.card.memory.store.byte? array i = some b → b = 0)) := by
  have hsound : s.Sound := hs ▸ hreachable.sound.step .begin
  obtain ⟨hlog, hstore⟩ := hreachable.sound.begin hbegin
  rw [← hs] at hlog hstore
  have hidle : s'.card.memory.transaction.isIdle = true := depth_eq_zero_iff.mp hclosed
  -- The whole trace: that of `cs`, which leaves the transaction open, and that of `c`.
  obtain ⟨hbefore, hallbefore, hcommitbefore, hstill⟩ := hsound.steps_staysOpen hopen
  have hnow := hbefore.isIdle_start hallbefore hstill
  have hreachable₁ : Reachable (run s cs).2 := hs ▸ (hreachable.step .begin).run cs
  have hsound₁ := hreachable₁.sound
  have hlast := hsound₁.steps_command hrestore
  rw [← hs'] at hlast
  have hsteps := hbefore.append hlast
  have hall : AllOpen (trace s (cs ++ [c])) := by
    rw [trace_concat]
    intro step hstep
    exact (List.mem_append.mp hstep).elim (hallbefore step)
      (allOpen_commandTrace hcommit hstill step)
  have hnocommit : ∀ step ∈ trace s (cs ++ [c]), step.2 ≠ .commit := by
    rw [trace_concat]
    intro step hstep
    exact (List.mem_append.mp hstep).elim (hcommitbefore step) (ne_commit_commandTrace hcommit step)
  rw [← trace_concat] at hsteps
  have hsound' : s'.Sound := hs' ▸ hsound₁.step c
  constructor
  · intro array hp i
    exact hsteps.rolledBack hsound.memory hsound.settled hlog hnow hall hnocommit hidle hp i
  · intro hundo array hp
    have halike := Steps.undoneAlike hsteps hsound.memory hsound.settled hall hnocommit hundo
    have hundone : s.card.memory.undone = s.card.memory.store := by
      unfold Memory.undone
      rw [hlog, Store.undone_nil]
    have hundone' := undone_of_idle hsound'.memory hidle
    constructor
    · intro hold i
      rw [← hstore] at hold ⊢
      rw [← hundone', ← hundone]
      exact halike.old hold i
    · intro habsent i b hb
      rw [← hstore] at habsent
      rw [← hundone'] at hb
      exact halike.new habsent hp hb

/-- A byte array whose first element is 3. -/
def oneArray : Session ConstantScore := (run fresh [.makePersistent .byte 4, .setElement ⟨1⟩ 0 3]).2

/-- Logged writes to elements 0 and 2, an unlogged one to element 2 between them, and a tear ahead.
-/
def mixedWrites : List (Command ConstantScore) :=
  [.setElement ⟨1⟩ 0 5, .copy .nonAtomic ⟨1⟩ 0 1 ⟨1⟩ 2, .setElement ⟨1⟩ 2 7, .injectPowerLoss 1]

/-- The session in the transaction. -/
def begun : Session ConstantScore := (step .begin oneArray).state

/-- The session after a torn write in the transaction. -/
def afterTear : Session ConstantScore := (step (.setShort ⟨1⟩ 2 9) (run begun mixedWrites).2).state

/-- A torn write brings element 2 back to what the unlogged write made of it. -/
theorem rollback_law_mixedWrites : afterTear.card.memory.store.byte? ⟨1⟩ 2 = some 5 := by
  have hreachable : Reachable oneArray := reachable_fresh.run _
  have hbegin : (step .begin oneArray).result = .ok .done := by rfl
  have hs : begun = (step .begin oneArray).state := rfl
  have hs' : afterTear = (step (.setShort ⟨1⟩ 2 9) (run begun mixedWrites).2).state := rfl
  have hopen : staysOpen begun mixedWrites = true := by decide +kernel
  have hclosed : afterTear.card.transactionDepth = 0 := by decide +kernel
  have hpersistent : afterTear.card.memory.store.IsPersistent ⟨1⟩ :=
    ⟨⟨.byte, 4, .persistent, false⟩, by decide +kernel, rfl⟩
  have hlaw := rollback_law hreachable hbegin hs hopen
    (c := .setShort ⟨1⟩ 2 9) nofun rfl hs' hclosed
  rw [hlaw.1 hpersistent]
  decide +kernel

end Session

end SmartCard
