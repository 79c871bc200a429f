-- SUMMARY: The totals agree with what callers see: results, depth, and the elements that range operations handle.
import SmartCard.Proofs.Session.EventStream
import SmartCard.Proofs.Totals

/-!
# Totals of a run

What the totals count, callers can count too: the transactions by the depth in the end, overflows
and losses of power by the faults of commands, and the range operations by their results
(`Session.metrics_conserved`). Each call adds the same on both sides, and both are sums over the
calls of the run.
-/

namespace SmartCard

variable {μ : Type} [Matcher μ]

namespace Call

/-- Whether a call is made at an entry point of the range operations. -/
def concerns (operation : RangeOperation) (call : Call μ) : Bool :=
  decide (call.command.operation? = some operation)

/-- Whether a call fails, for whatever reason. -/
def fails (call : Call μ) : Bool := failsBy (fun _ => true) call.outcome.result

/-- The elements that a call handles if it succeeds. -/
def elements (call : Call μ) : Nat :=
  match call.outcome.result with
  | .ok reply => call.command.handled call.session.card.memory reply
  | .error _ => 0

end Call

namespace Session

variable {s : Session μ} {cs : List (Command μ)} {operation : RangeOperation}

/-! ## One call -/

omit [Matcher μ] in
/-- Range operations do not report on the transaction. -/
theorem sum_report (m : Memory) (command : Command μ) (result : Except Fault Reply)
    {amount : Event → Nat} (hamount : ∀ e, e.operation? ≠ none → amount e = 0) :
    ((command.report m result).map amount).sum = 0 := by
  refine sum_map_zero fun e he => hamount e ?_
  unfold Command.report at he
  split at he
  · cases he
  · rw [List.mem_singleton.mp he]
    exact Option.some_ne_none _
  · rw [List.mem_singleton.mp he]
    exact Option.some_ne_none _

/-- What the events about the transaction add up to. -/
theorem Accounts.sum_account {call : Call μ} (h : Accounts call.session call.command)
    (amount : Event → Nat) (hamount : ∀ e, e.operation? ≠ none → amount e = 0) : ∃ es,
    Told call.session.card.memory.bracket call.outcome.result es
      call.outcome.state.card.memory.bracket ∧
    (call.outcome.events.map amount).sum = (es.map amount).sum := by
  obtain ⟨es, hevents, htold⟩ := h
  have hcall : call.outcome.events =
      es ++ call.command.report call.session.card.memory call.outcome.result := hevents
  refine ⟨es, htold, ?_⟩
  rw [hcall, List.map_append, List.sum_append, sum_report _ _ _ hamount, Nat.add_zero]

/-- What the events about range operations add up to. -/
theorem Accounts.sum_range {call : Call μ} (h : Accounts call.session call.command)
    {amount : Event → Nat} (hamount : ∀ e, e.operation? = none → amount e = 0) :
    (call.outcome.events.map amount).sum =
      ((call.command.report call.session.card.memory call.outcome.result).map amount).sum := by
  obtain ⟨es, hevents, htold⟩ := h
  have hcall : call.outcome.events =
      es ++ call.command.report call.session.card.memory call.outcome.result := hevents
  rw [hcall, List.map_append, List.sum_append,
    sum_map_zero fun e he => hamount e (htold.apart e he), Nat.zero_add]

variable {call : Call μ}

theorem Accounts.overflows (h : Accounts call.session call.command) :
    (call.outcome.events.map fun e => e.isOverflow.toNat).sum =
      (failsBy Fault.isBufferFull call.outcome.result).toNat := by
  obtain ⟨es, htold, hsum⟩ := h.sum_account (fun e => e.isOverflow.toNat) (by
    intro e he
    cases e <;> first | rfl | exact absurd rfl he)
  rw [hsum, sum_map_toNat, htold.overflows]

theorem Accounts.losses (h : Accounts call.session call.command) :
    (call.outcome.events.map fun e => e.isPowerLost.toNat).sum =
      (failsBy Fault.isPowerLoss call.outcome.result).toNat := by
  obtain ⟨es, htold, hsum⟩ := h.sum_account (fun e => e.isPowerLost.toNat) (by
    intro e he
    cases e <;> first | rfl | exact absurd rfl he)
  rw [hsum, sum_map_toNat, htold.losses]

theorem Accounts.concerns (h : Accounts call.session call.command) (operation : RangeOperation) :
    (call.outcome.events.map fun e => (e.concerns operation).toNat).sum =
      (call.concerns operation).toNat := by
  rw [h.sum_range fun e he => by simp [Event.concerns, he], Command.report.eq_def, Call.concerns]
  rcases call.command.operation? with _ | other
  · rfl
  · rcases call.outcome.result with _ | _ <;> simp [Event.concerns, Event.operation?]

theorem Accounts.failures (h : Accounts call.session call.command) (operation : RangeOperation) :
    (call.outcome.events.map fun e => (e.isFailureOf operation).toNat).sum =
      (call.concerns operation && call.fails).toNat := by
  have hamount : ∀ e : Event, e.operation? = none → (e.isFailureOf operation).toNat = 0 := by
    intro e he
    cases e <;> first | rfl | cases he
  rw [h.sum_range hamount, Command.report.eq_def, Call.concerns, Call.fails]
  rcases call.command.operation? with _ | other
  · rfl
  · rcases call.outcome.result with _ | _ <;> simp [Event.isFailureOf, failsBy]

theorem Accounts.elements (h : Accounts call.session call.command) (operation : RangeOperation) :
    (call.outcome.events.map (Event.elementsOf operation)).sum =
      if call.concerns operation then call.elements else 0 := by
  have hamount : ∀ e : Event, e.operation? = none → e.elementsOf operation = 0 := by
    intro e he
    cases e <;> first | rfl | cases he
  rw [h.sum_range hamount, Command.report.eq_def, Call.concerns, Call.elements]
  rcases call.command.operation? with _ | other
  · rfl
  · rcases call.outcome.result with _ | _ <;> simp [Event.elementsOf]

/-! ## Runs -/

/-- The calls of a run that starts with fresh totals. -/
def counted (s : Session μ) (cs : List (Command μ)) : List (Call μ) :=
  calls (step .resetTotals s).state cs

/-- Amounts that each call determines add up over the run. -/
theorem sum_calls {amount : Event → Nat} {share : Call μ → Nat} {l : List (Call μ)}
    (h : ∀ call ∈ l, (call.outcome.events.map amount).sum = share call) :
    ((l.flatMap (·.outcome.events)).map amount).sum = (l.map share).sum := by
  induction l with
  | nil => rfl
  | cons call more ih =>
    rw [List.flatMap_cons, List.map_append, List.sum_append, List.map_cons, List.sum_cons,
      h call (.head _), ih fun other hmem => h other (.tail _ hmem)]

theorem sum_map_ite {α : Type} (p : α → Bool) (f : α → Nat) (l : List α) :
    (l.map fun a => if p a then f a else 0).sum = ((l.filter p).map f).sum := by
  induction l with
  | nil => rfl
  | cons a more ih =>
    rw [List.map_cons, List.sum_cons, ih, List.filter_cons]
    rcases p a with _ | _
    · exact Nat.zero_add _
    · rfl

theorem mem_events_of_operation {l : List (Call μ)}
    (h : ∀ call ∈ l, Accounts call.session call.command) :
    (∃ e ∈ l.flatMap (·.outcome.events), e.operation? = some operation) ↔
      ∃ call ∈ l, call.command.operation? = some operation := by
  have hcount : ∀ {es : List Event}, (∃ e ∈ es, e.operation? = some operation) ↔
      0 < (es.map fun e => (e.concerns operation).toNat).sum := by
    intro es
    rw [sum_map_toNat, List.countP_pos_iff]
    simp only [Event.concerns, decide_eq_true_eq]
  rw [hcount, sum_calls fun call hcall => (h call hcall).concerns operation, sum_map_toNat,
    List.countP_pos_iff]
  simp only [Call.concerns, decide_eq_true_eq]

omit [Matcher μ] in
theorem toNat_depth (s : Session μ) :
    s.card.transactionDepth.toNat = (!s.card.memory.transaction.isIdle).toNat := by
  unfold Card.transactionDepth Transaction.depth
  rcases s.card.memory.transaction.isIdle with _ | _ <;> rfl

theorem label_injective {first second : RangeOperation} (h : first.label = second.label) :
    first = second := by
  cases first <;> cases second <;> first | rfl | exact absurd h (by decide)

/-- The totals of a run agree with what callers see. From fresh totals on, on one card that is in no
transaction, without observers and with less to count than a word can hold: each transaction that
was begun was committed or rolled back, or is open in the end; the commit buffer overflowed as often
as a command failed for it, and power was lost as often as a command failed for that; and each entry
point of the range operations has the number of calls made there and of those that failed, and the
elements that the others handled, with a label for each that was called and no other. -/
theorem metrics_conserved (hreachable : s.Reachable) (hdepth : s.card.transactionDepth = 0)
    (hnone : s.telemetry.observers = []) (hinstall : .installObserver ∉ cs)
    (hreset : .resetTotals ∉ cs) (hcard : KeepsCard (step .resetTotals s).state cs)
    (hevents : (events (step .resetTotals s).state cs).length < UInt64.size)
    (hunits : ((events (step .resetTotals s).state cs).map Event.units).sum < UInt64.size) :
    ∃ t : Totals, (run s (.resetTotals :: cs ++ [.totals])).1 =
        .ok .done :: (counted s cs).map (·.outcome.result) ++ [.ok (.totals t)] ∧
      t.begins.toNat = t.commits.toNat + t.aborts.toNat +
        (run s (.resetTotals :: cs)).2.card.transactionDepth.toNat ∧
      t.capacityOverflows.toNat =
        (counted s cs).countP (fun call => failsBy Fault.isBufferFull call.outcome.result) ∧
      t.powerLosses.toNat =
        (counted s cs).countP (fun call => failsBy Fault.isPowerLoss call.outcome.result) ∧
      (∀ operation,
        (t.rangeTotals operation).calls.toNat = (counted s cs).countP (Call.concerns operation) ∧
        (t.rangeTotals operation).failures.toNat =
          (counted s cs).countP (fun call => call.concerns operation && call.fails) ∧
        (t.rangeTotals operation).elements.toNat =
          (((counted s cs).filter (Call.concerns operation)).map Call.elements).sum) ∧
      (t.ranges.map fun entry => entry.1.label).Nodup ∧
      ∀ label, label ∈ t.ranges.map (fun entry => entry.1.label) ↔
        ∃ call ∈ counted s cs, ∃ operation, call.command.operation? = some operation ∧
          operation.label = label := by
  have hreachable' := hreachable.step .resetTotals
  have hfresh : (step .resetTotals s).state.telemetry = ⟨{}, []⟩ := by
    show Telemetry.receive (Telemetry.reset s.telemetry) [] = _
    unfold Telemetry.reset
    rw [hnone]
    rfl
  have hends := totals_run hinstall hreset hfresh
  have haccounts : ∀ call ∈ counted s cs, Accounts call.session call.command :=
    fun call hcall => accounts_step (hreachable'.of_call hcall).inOrder (hcard call hcall)
  have hkeyed := Totals.keyed_reset.foldl (events (step .resetTotals s).state cs)
  rw [List.nil_append] at hkeyed
  refine ⟨(events (step .resetTotals s).state cs).foldl Totals.record {}, ?_, ?_, ?_, ?_,
    fun operation => ⟨?_, ?_, ?_⟩, ?_, fun label => ?_⟩
  · have htotals : (step .totals (run (step .resetTotals s).state cs).2).result =
        .ok (.totals ((events (step .resetTotals s).state cs).foldl Totals.record {})) := by
      show Except.ok (Reply.totals (run (step .resetTotals s).state cs).2.telemetry.totals) = _
      rw [hends]
    rw [List.cons_append, run, run_append, results_run]
    exact congrArg (fun r => Except.ok Reply.done ::
      ((counted s cs).map (·.outcome.result) ++ [r])) htotals
  · have hcount := (follows_closed hreachable' hdepth hcard).count
    rw [Totals.adds_begins.toNat_count rfl hevents, Totals.adds_commits.toNat_count rfl hevents,
      Totals.adds_aborts.toNat_count rfl hevents, sum_map_toNat, sum_map_toNat, sum_map_toNat,
      toNat_depth, ← Memory.isOpen_bracket]
    exact (Nat.zero_add _).symm.trans hcount
  · rw [Totals.adds_capacityOverflows.toNat_count rfl hevents, ← sum_map_toNat]
    exact sum_calls fun call hcall => (haccounts call hcall).overflows
  · rw [Totals.adds_powerLosses.toNat_count rfl hevents, ← sum_map_toNat]
    exact sum_calls fun call hcall => (haccounts call hcall).losses
  · rw [(Totals.adds_calls operation).toNat_count rfl hevents, ← sum_map_toNat]
    exact sum_calls fun call hcall => (haccounts call hcall).concerns operation
  · rw [(Totals.adds_failures operation).toNat_count rfl hevents, ← sum_map_toNat]
    exact sum_calls fun call hcall => (haccounts call hcall).failures operation
  · rw [(Totals.adds_elements operation).toNat_fresh rfl (Event.elementsOf_le operation) hunits,
      ← sum_map_ite]
    exact sum_calls fun call hcall => (haccounts call hcall).elements operation
  · have hlabels : ∀ a b : RangeOperation, a ≠ b → a.label ≠ b.label :=
      fun _ _ hne heq => hne (label_injective heq)
    have hmap := List.Pairwise.map RangeOperation.label hlabels hkeyed.nodup
    rw [List.map_map] at hmap
    exact hmap
  · have hmem := fun operation =>
      (hkeyed.mem_iff operation).trans (@mem_events_of_operation _ _ operation _ haccounts)
    constructor
    · intro hlabel
      obtain ⟨entry, hentry, rfl⟩ := List.mem_map.mp hlabel
      obtain ⟨call, hcall, hop⟩ := (hmem entry.1).mp (List.mem_map_of_mem hentry)
      exact ⟨call, hcall, entry.1, hop, rfl⟩
    · rintro ⟨call, hcall, operation, hop, rfl⟩
      obtain ⟨entry, hentry, heq⟩ := List.mem_map.mp ((hmem operation).mpr ⟨call, hcall, hop⟩)
      exact List.mem_map.mpr ⟨entry, hentry, congrArg RangeOperation.label heq⟩

/-- Two copies in a transaction, of which the second one reaches too far, and a search. -/
def countedCommands : List (Command ConstantScore) :=
  [.begin, .copy .atomic ⟨1⟩ 0 2 ⟨1⟩ 2, .copy .atomic ⟨1⟩ 0 4 ⟨1⟩ 1, .find ⟨1⟩ 0 ⟨1⟩ 1]

/-- The totals have two calls for the copies, one failure, and the elements of the first one. -/
theorem metrics_conserved_countedCommands :
    ∃ t : Totals, .ok (.totals t) ∈ (run oneArray (.resetTotals :: countedCommands ++ [.totals])).1 ∧
      t.begins.toNat = t.commits.toNat + t.aborts.toNat + 1 ∧
      (t.rangeTotals .copy).calls.toNat = 2 ∧ (t.rangeTotals .copy).failures.toNat = 1 ∧
      (t.rangeTotals .copy).elements.toNat = 2 ∧ (t.rangeTotals .find).elements.toNat = 2 := by
  have hreachable : oneArray.Reachable := reachable_fresh.run _
  have hinstall : .installObserver ∉ countedCommands := by simp [countedCommands]
  have hreset : .resetTotals ∉ countedCommands := by simp [countedCommands]
  obtain ⟨t, hresults, hbegins, _, _, hranges, _⟩ := metrics_conserved hreachable (by rfl) (by rfl)
    hinstall hreset (keepsCard_of_plain (by decide)) (by decide +kernel) (by decide +kernel)
  have hcopies := hranges .copy
  refine ⟨t, ?_, hbegins, ?_, ?_, ?_, ?_⟩
  · rw [hresults]
    exact List.mem_append_right _ (.head _)
  · rw [hcopies.1]
    rfl
  · rw [hcopies.2.1]
    rfl
  · rw [hcopies.2.2]
    rfl
  · rw [(hranges .find).2.2]
    rfl

end Session

end SmartCard
