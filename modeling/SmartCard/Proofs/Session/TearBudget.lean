-- SUMMARY: Tear accounting: what a run spends of the tear budget, and what the write that exceeds it leaves behind.
import SmartCard.Proofs.Image.Transients
import SmartCard.Proofs.Memory.Budget
import SmartCard.Proofs.Memory.Transients
import SmartCard.Proofs.Session.Recovery
import SmartCard.Proofs.Session.Reports
import SmartCard.Proofs.Session.Untorn

/-!
# Tear accounting

A tear is armed with a budget, and the commands after that run on the same card. What they hand to
the store is paid out of the budget (`Session.demand`). As long as the budget covers it, they run as
with no tear ahead. The write that exceeds it stores the bytes that are left in the budget and loses
power (`Session.Strikes`), and the tear is gone after that.
-/

namespace SmartCard

variable {μ : Type} {m : Memory} {w : Write}

open Operation

namespace Command

/-- Commands that ask for anything but writes. A rollback, the clearing of transient arrays and a flip
of bits go past the tear. -/
def goesPastTear : Command μ → Bool
  | .begin | .commit | .abort | .reset | .deselect | .injectBitFlip .. | .image => true
  | _ => false

end Command

/-- Calls that spend nothing of a tear budget. -/
inductive Call.Spares [Matcher μ] (call : Call μ) : Prop where
  | past : call.command.goesPastTear = true → Spares call
  | failed {e : Fault} :
      call.outcome.result = .error e → e.isPowerLoss = false → Spares call
  | empty : call.command.WritesNothing call.session.card.memory.store → Spares call

namespace Session

variable [Matcher μ] {s : Session μ} {command : Command μ} {cs cs' : List (Command μ)}
  {left : UInt64}

/-! ## What a run demands -/

/-- The bytes that a run hands to the store to be written. -/
def demand (s : Session μ) (cs : List (Command μ)) : Nat := bytesOf (trace s cs)

theorem demand_cons (s : Session μ) (command : Command μ) (cs : List (Command μ)) :
    demand s (command :: cs) =
      bytesOf (commandTrace s command) + demand (Session.step command s).state cs :=
  bytesOf_append _ _

/-- The bytes that can be written before power is lost, if a tear is armed. -/
def tear (s : Session μ) : Option UInt64 := s.card.memory.store.tear

/-- The session with a tear armed that has this budget. -/
def armed (s : Session μ) (budget : UInt64) : Session μ := (step (.injectPowerLoss budget) s).state

theorem tear_armed (h : s.Sound) (budget : UInt64) : (s.armed budget).tear = some budget := by
  have hcard := h.card_step (c := .injectPowerLoss budget) rfl
  unfold tear armed
  rw [hcard]
  rfl

/-- Whether a command runs on the card in its place, with the tear that was armed before it. -/
structure Continues (s : Session μ) (command : Command μ) : Prop where
  unarmed : ∀ bytes, command ≠ .injectPowerLoss bytes
  card : ¬command.PowersUp s
  hosted : command.Hosted s

omit [Matcher μ] in
theorem continues_of_card (hunarmed : ∀ bytes, command ≠ .injectPowerLoss bytes)
    (hrestore : command.isRestore = false) (hcard : command.position? = none) :
    s.Continues command :=
  ⟨hunarmed, not_powersUp hrestore, Command.hosted_of_card hcard⟩

/-! ## Single commands -/

/-- What a command spends of the budget. -/
theorem Sound.spends_step (h : s.Sound) (hcommand : s.Continues command) :
    Spends s.card.memory (commandTrace s command)
      ((Session.step command s).result.map fun _ => (),
        (Session.step command s).state.card.memory) := by
  rcases hrestore : command.isRestore with _ | _
  · rw [h.result_step hrestore, h.card_step hrestore]
    unfold commandTrace
    rcases hr : command.request s with e | ops
    · exact .free rfl (command.isRefusal_request s e hr).1 rfl
    · have hyields := Command.yields_request s command ops hr
      have hasked := Command.asked_request h.memory.store command ops hr
      change Spends s.card.memory (Operation.trace s.card.memory ops)
        (Operation.run s.card.memory ops)
      cases hasked with
      | nothing => exact .free rfl rfl rfl
      | @other op hop =>
        rw [run_singleton, Operation.trace_singleton]
        refine spends_act h.memory hop ?_
        rintro bytes rfl
        cases hyields _ (.head _)
        exact hcommand.unarmed bytes rfl
      | write _ hrange =>
        rw [run_singleton, Operation.trace_singleton]
        exact Write.spends_act hrange h.memory h.settled
      | counter hposition ht _ hfits =>
        rw [run_singleton, Operation.trace_singleton]
        exact Write.spends_act ⟨_, hcommand.hosted hposition ht, hfits⟩ h.memory h.settled
      | enrolment hfree => exact spends_enrolment h.memory h.settled hfree (Nat.le_refl 2)
  · obtain ⟨e, hrefusal, hresult, hcard⟩ := step_restore_refused hrestore hcommand.card
    rw [commandTrace_restore hrestore, hresult, hcard]
    exact .free rfl hrefusal.1 rfl

/-- A command that leaves the card in its place runs as with no tear ahead, or loses power. -/
theorem Sound.untorn_command (h : s.Sound) (hcommand : s.Continues command) :
    (perform command).Untorn s := by
  rcases hrestore : command.isRestore with _ | _
  · exact h.untorn_perform hrestore hcommand.unarmed hcommand.hosted
  · obtain ⟨e, _, hperform⟩ := perform_restore_refused hrestore hcommand.card
    refine .inr ?_
    rw [hperform s, hperform]
    rfl

/-- What does not report a loss of power has not lost it. -/
theorem Reachable.untorn_step (h : s.Reachable) (hcommand : s.Continues command)
    (hkept : failsBy Fault.isPowerLoss (Session.step command s).result = false) :
    Session.step command s.untorn = (Session.step command s).untorn := by
  rcases h.sound.untorn_command hcommand with hlost | hsame
  · -- The events of a command tell of as many losses of power as its result does, which is none.
    have hmem : .powerLost ∈ (Session.step command s).events := hlost
    obtain ⟨es, hevents, htold⟩ := accounts_step h.inOrder hcommand.card
    rw [hevents] at hmem
    rcases List.mem_append.mp hmem with htells | hreport
    · have hpos : 0 < es.countP Event.isPowerLost := List.countP_pos_iff.mpr ⟨_, htells, rfl⟩
      rw [htold.losses, hkept] at hpos
      cases hpos
    · unfold Command.report at hreport
      split at hreport <;> simp at hreport
  · have hperform : perform command s.untorn = (perform command s).untorn := hsame
    unfold Session.step
    rw [hperform]
    rfl

/-- The write `w` of a command is handed to the store in the memory `m`, with less left in the
budget than it has bytes. The leading bytes for which there is budget are stored, and the command
reports that power was lost. Then the tear and the transaction are gone, transient arrays are zero,
and persistent ones are what a rollback makes of the memory with the torn write. -/
structure Strikes (left : UInt64) (w : Write) (m : Memory) (s : Session μ) (command : Command μ) :
    Prop where
  issued : ∃ found, (found, .write w) ∈ commandTrace s command ∧ w.issued found = .ok m
  short : left.toNat < w.bytes.length
  leading : ∀ array i, (w.stored m).store.byte? array i =
    if w.array = array ∧ w.offset ≤ i ∧ i < w.offset + left.toNat then w.bytes[i - w.offset]?
    else m.store.byte? array i
  reported : (step command s).result = .error (.tear left.toNat w.bytes.length w.array)
  disarmed : (step command s).state.tear = none
  depth : (step command s).state.card.transactionDepth = 0
  log : (step command s).state.card.memory.transaction.log =
    .empty s.card.config.commitCapacity s.card.config.commitEntryOverhead
  transients : (step command s).state.card.memory.store.TransientsZero
  persistent : ∀ array, (step command s).state.card.memory.store.IsPersistent array → ∀ i,
    (step command s).state.card.memory.store.byte? array i =
      ((Memory.rollBackOpen .powerLoss).exec (w.stored m)).2.store.byte? array i

/-- What a command leaves of the tear that it finds. -/
inductive Meets (s : Session μ) (command : Command μ) : Prop where
  | covered :
      step command s.untorn = (step command s).untorn →
      (∀ left, s.tear = some left → demand s [command] ≤ left.toNat) →
      (step command s).state.tear =
        s.tear.map (fun left => left - UInt64.ofNat (demand s [command])) →
      Meets s command
  | struck {left : UInt64} {w : Write} {m : Memory} :
      s.tear = some left → left.toNat < demand s [command] → Strikes left w m s command →
      Meets s command

theorem demand_singleton (s : Session μ) (command : Command μ) :
    demand s [command] = bytesOf (commandTrace s command) :=
  congrArg bytesOf (trace_singleton s command)

omit [Matcher μ] in
/-- Once power is back every transient array is zero. -/
theorem transientsZero_recovered {c : Config} (h : m.Sound c) :
    m.recovered.store.TransientsZero := by
  intro array d hd ht
  rw [h.descriptor?_recovered] at hd
  exact h.payload?_recovered hd ht

/-- What is left when a write tears. -/
theorem Sound.strikes {found : Memory} (h : s.Sound)
    (hmem : (found, .write w) ∈ commandTrace s command)
    (hissued : w.issued found = .ok m) (htear : found.store.tear = some left)
    (hlt : left.toNat < w.bytes.length)
    (hanswer : w.answer m = .error (.tear left.toNat w.bytes.length w.array))
    (hresult : (Session.step command s).result = .error (.tear left.toNat w.bytes.length w.array))
    (hleft : (Session.step command s).state.card.memory = (w.stored m).recovered) :
    Strikes left w m s command := by
  have hsound : (w.stored m).Sound s.card.config :=
    Write.sound_stored (Write.sound_issued (h.mem_commandTrace hmem) hissued)
  rw [← Write.store_issued hissued] at htear
  refine ⟨⟨found, hmem, hissued⟩, hlt, Write.byte?_torn htear hanswer, hresult, ?_, ?_, ?_, ?_, ?_⟩
  · unfold tear
    rw [hleft]
    rfl
  · unfold Card.transactionDepth
    rw [hleft]
    rfl
  · rw [hleft]
    exact congrArg Transaction.log hsound.close_eq
  · rw [hleft]
    exact transientsZero_recovered hsound
  · -- Recovery differs from a rollback of the torn memory in transient arrays only.
    rw [hleft]
    rintro array ⟨d, hd, hpersistent⟩ i
    rw [hsound.descriptor?_recovered] at hd
    rw [hsound.exec_rollBackOpen]
    exact hsound.byte?_recovered ⟨d, hd, hpersistent⟩ i

theorem Reachable.meets (h : s.Reachable) (hcommand : s.Continues command) : Meets s command := by
  have hspends := h.sound.spends_step hcommand
  generalize hr : (Session.step command s).result.map (fun _ => ()) = r at hspends
  generalize hm : (Session.step command s).state.card.memory = m' at hspends
  have hdemand := demand_singleton s command
  cases hspends with
  | covered hloss _ hle hleft =>
    refine .covered (h.untorn_step hcommand ?_) (hdemand ▸ hle) ?_
    · rw [← failsBy_map, hr]
      exact hloss
    · unfold tear
      rw [hm, hdemand]
      exact hleft
  | @torn found m w left htear hfound hmem hissued hlt hanswer hsum =>
    have hresult : (Session.step command s).result =
        .error (.tear left.toNat w.bytes.length w.array) := by
      rcases hends : (Session.step command s).result with e | _
      · rw [hends] at hr
        cases hr
        rfl
      · rw [hends] at hr
        cases hr
    exact .struck htear (by omega)
      (h.sound.strikes hmem hissued hfound hlt hanswer hresult hm)

theorem bytesOf_goesPastTear (hpast : command.goesPastTear = true) :
    bytesOf (commandTrace s command) = 0 := by
  have hone : ∀ op : Operation, (∀ w, op ≠ .write w) →
      bytesOf (Operation.trace s.card.memory [op]) = 0 := by
    intro op hop
    rw [Operation.trace_singleton, bytesOf_cons, bytes_of_other hop]
    rfl
  cases command
  case begin => exact hone .begin nofun
  case commit => exact hone .commit nofun
  case abort => exact hone .abort nofun
  case reset => exact hone .reset nofun
  case deselect => exact hone .deselect nofun
  case injectBitFlip array byte mask => exact hone (.flip array byte mask) nofun
  case image => rfl
  all_goals cases hpast

/-- What spends nothing leaves the tear as it is. -/
theorem Sound.tear_of_spares (h : s.Sound) (hcommand : s.Continues command)
    (hspares : Call.Spares ⟨s, command⟩) :
    demand s [command] = 0 ∧ (Session.step command s).state.tear = s.tear := by
  have hspends := h.spends_step hcommand
  have hfree : bytesOf (commandTrace s command) = 0 := by
    cases hspares with
    | past hpast => exact bytesOf_goesPastTear hpast
    | @failed e he hkept =>
      have hends : (Session.step command s).result.map (fun _ => ()) = .error e :=
        congrArg (Except.map _) he
      rw [hends] at hspends
      exact hspends.free_of_error hkept
    | empty hnone =>
      unfold commandTrace
      rcases hr : command.request s with e | ops
      · rfl
      · cases Command.request_of_writesNothing h.memory.store hnone ops hr
        rfl
  exact ⟨(demand_singleton s command).trans hfree, hspends.tear_of_free hfree⟩

/-! ## Runs -/

theorem toNat_budget_left {bytes : Nat} (hle : bytes ≤ left.toNat) :
    (left - UInt64.ofNat bytes).toNat + bytes = left.toNat := by
  have hbytes : (UInt64.ofNat bytes).toNat = bytes :=
    UInt64.toNat_ofNat_of_lt' (Nat.lt_of_le_of_lt hle left.toNat_lt)
  rw [UInt64.toNat_sub_of_le _ _ (UInt64.le_iff_toNat_le.mpr (hbytes.symm ▸ hle)), hbytes]
  omega

/-- As long as the budget covers what it demands, a run goes as with no tear ahead. -/
theorem Reachable.covered_run (h : s.Reachable) (hcs : Throughout Continues s cs)
    (htear : s.tear = some left) (hle : demand s cs ≤ left.toNat) :
    (calls s cs).map (fun call => call.outcome.untorn) =
        (calls s.untorn cs).map Call.outcome ∧
      ∃ rest, (Session.run s cs).2.tear = some rest ∧ rest.toNat + demand s cs = left.toNat := by
  induction cs generalizing s left with
  | nil => exact ⟨rfl, left, htear, rfl⟩
  | cons command more ih =>
    rw [demand_cons, ← demand_singleton] at hle ⊢
    cases h.meets hcs.head with
    | covered hsame hfits hnext =>
      -- What the first command leaves of the budget covers the others.
      have hspent := toNat_budget_left (hfits left htear)
      rw [htear, Option.map_some] at hnext
      obtain ⟨hmore, rest, hend, hsum⟩ := ih (h.step command) hcs.tail hnext (by omega)
      refine ⟨?_, rest, hend, by omega⟩
      rw [calls, calls, List.map_cons, List.map_cons, hmore]
      show _ = Session.step command s.untorn ::
        (calls (Session.step command s.untorn).state more).map Call.outcome
      rw [hsame]
      rfl
    | struck htear' hlt =>
      rw [htear, Option.some.injEq] at htear'
      subst htear'
      omega

/-- A tear that is gone does not come back. -/
theorem Reachable.tear_calls (h : s.Reachable) (hcs : Throughout Continues s cs)
    (hnone : s.tear = none) : ∀ call ∈ calls s cs, call.outcome.state.tear = none := by
  induction cs generalizing s with
  | nil =>
    intro call hmem
    cases hmem
  | cons command more ih =>
    have hnext : (Session.step command s).state.tear = none := by
      cases h.meets hcs.head with
      | covered _ _ hnext =>
        rw [hnext, hnone]
        rfl
      | struck htear => rw [hnone] at htear; cases htear
    exact List.forall_mem_cons.mpr ⟨hnext, ih (h.step command) hcs.tail hnext⟩

/-- A run that demands more than the budget has a first write that exceeds it. -/
theorem Reachable.struck_run (h : s.Reachable) (hcs : Throughout Continues s cs)
    {budget : UInt64} (htear : s.tear = some budget) (hlt : budget.toNat < demand s cs) :
    ∃ before command after left w m, cs = before ++ command :: after ∧
      left.toNat + demand s before = budget.toNat ∧
      Strikes left w m (Session.run s before).2 command ∧
      ∀ call ∈ calls (Session.run s (before ++ [command])).2 after,
        call.outcome.state.tear = none := by
  induction cs generalizing s budget with
  | nil => exact absurd hlt (Nat.not_lt_zero _)
  | cons command more ih =>
    rw [demand_cons, ← demand_singleton] at hlt
    cases h.meets hcs.head with
    | covered _ hfits hnext =>
      have hspent := toNat_budget_left (hfits budget htear)
      rw [htear, Option.map_some] at hnext
      obtain ⟨before, struck, after, left, w, m, rfl, hleft, hstrikes, hafter⟩ :=
        ih (h.step command) hcs.tail hnext (by omega)
      refine ⟨command :: before, struck, after, left, w, m, rfl, ?_, hstrikes, hafter⟩
      rw [demand_cons, ← demand_singleton]
      omega
    | @struck left w m htear' _ hstrikes =>
      rw [htear, Option.some.injEq] at htear'
      subst htear'
      exact ⟨[], command, more, _, w, m, rfl, rfl, hstrikes,
        Reachable.tear_calls (h.step command) hcs.tail hstrikes.disarmed⟩

/-- The accounts of a tear. A tear with a budget is armed, and the commands that follow run on the
same card and arm no other. If the budget covers the bytes that they hand to the store, then each of
them does what it does with no tear ahead, and the budget is left that they have not spent. Otherwise
there is a first write that exceeds the budget, and the commands before that do what they do with no
tear ahead. The write stores the bytes that were left in the budget when it came. Its command reports
the loss of power, and leaves the card without a tear, without a transaction and with transient
arrays zeroed. Rollbacks, the clearing of transient arrays, flips of bits, images, writes without
bytes, and commands that fail without losing power spend nothing. -/
theorem tear_accounting (hreachable : s.Reachable) (budget : UInt64)
    (hcs : Throughout Continues (s.armed budget) cs) :
    (demand (s.armed budget) cs ≤ budget.toNat →
      (calls (s.armed budget) cs).map (fun call => call.outcome.untorn) =
          (calls (s.armed budget).untorn cs).map Call.outcome ∧
        ∃ left, (run (s.armed budget) cs).2.tear = some left ∧
          left.toNat + demand (s.armed budget) cs = budget.toNat) ∧
    (budget.toNat < demand (s.armed budget) cs →
      ∃ before command after left w m, cs = before ++ command :: after ∧
        (calls (s.armed budget) before).map (fun call => call.outcome.untorn) =
          (calls (s.armed budget).untorn before).map Call.outcome ∧
        left.toNat + demand (s.armed budget) before = budget.toNat ∧
        Strikes left w m (run (s.armed budget) before).2 command ∧
        ∀ call ∈ calls (run (s.armed budget) (before ++ [command])).2 after,
          call.outcome.state.tear = none) ∧
    ∀ call ∈ calls (s.armed budget) cs, call.Spares →
      demand call.session [call.command] = 0 ∧ call.outcome.state.tear = call.session.tear := by
  have harmed : (s.armed budget).Reachable := hreachable.step (.injectPowerLoss budget)
  have htear := tear_armed hreachable.sound budget
  refine ⟨harmed.covered_run hcs htear, fun hlt => ?_, fun call hcall hspares => ?_⟩
  · obtain ⟨before, command, after, left, w, m, rfl, hleft, hstrikes, hafter⟩ :=
      harmed.struck_run hcs htear hlt
    have hbefore := harmed.covered_run hcs.left htear (by omega)
    exact ⟨before, command, after, left, w, m, rfl, hbefore.1, hleft, hstrikes, hafter⟩
  · exact (harmed.of_call hcall).sound.tear_of_spares (hcs call hcall) hspares

/-- In a transaction, a short that is paid for and one for which only a byte is left. -/
def crossing : List (Command ConstantScore) :=
  [.begin, .setShort ⟨1⟩ 0 5, .injectBitFlip ⟨1⟩ 3 1, .setShort ⟨1⟩ 2 9, .getShort ⟨1⟩ 0]

/-- With a budget of three bytes the tear strikes in that run. -/
theorem tear_accounting_crossing :
    ∃ before command after left w m, crossing = before ++ command :: after ∧
      left.toNat + demand (oneArray.armed 3) before = 3 ∧
      Strikes left w m (run (oneArray.armed 3) before).2 command := by
  have hreachable : oneArray.Reachable := reachable_fresh.run _
  have hcs : Throughout Continues (oneArray.armed 3) crossing := by
    refine .of_forall fun c hc s => continues_of_card ?_ ?_ ?_
    all_goals
      simp only [crossing, List.mem_cons, List.not_mem_nil, or_false] at hc
      rcases hc with rfl | rfl | rfl | rfl | rfl
    all_goals first
      | rfl
      | nofun
  have hlt : (3 : UInt64).toNat < demand (oneArray.armed 3) crossing := by decide +kernel
  obtain ⟨before, command, after, left, w, m, hcrossing, _, hleft, hstrikes, _⟩ :=
    (tear_accounting hreachable 3 hcs).2.1 hlt
  exact ⟨before, command, after, left, w, m, hcrossing, hleft, hstrikes⟩

end Session

end SmartCard
