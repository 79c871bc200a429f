-- SUMMARY: The events of a run on one card are a faithful trace of its transactions.
import SmartCard.Proofs.Session.Capacity
import SmartCard.Proofs.Session.Delivery
import SmartCard.Proofs.Session.Reports

/-!
# The event stream

An observer who is there from a time without an open transaction on, and as long as the card stays
in its place, sees well-bracketed events: each begin before the commit or the rollback that closes
it, the undo entries between them, and what an overflow or a loss of power entails right after it
(`Session.observed_events_fit`).
-/

namespace SmartCard

variable {μ : Type} [Matcher μ]

namespace Session

variable {s : Session μ} {command : Command μ} {cs : List (Command μ)}

omit [Matcher μ] in
/-- What a range operation reports on itself has its place wherever it ends. -/
theorem follows_report (m : Memory) (command : Command μ) (result : Except Fault Reply)
    {b : Bracket} (hrest : b.IsAtRest) : b.Follows (command.report m result) b := by
  unfold Command.report
  split
  · exact .nil
  · exact .one (.done hrest)
  · exact .one (.failed hrest)

theorem Accounts.follows (h : Accounts s command) :
    s.card.memory.bracket.Follows (step command s).events
      (step command s).state.card.memory.bracket := by
  obtain ⟨es, hevents, htold⟩ := h
  rw [hevents]
  exact htold.follows.append (follows_report _ _ _ (Memory.isAtRest_bracket _))

/-- The events of a run lead from one bracket to the next. -/
theorem Reachable.follows_run (h : s.Reachable) (hcard : KeepsCard s cs) :
    s.card.memory.bracket.Follows (events s cs) (Session.run s cs).2.card.memory.bracket := by
  induction cs generalizing s with
  | nil => exact .nil
  | cons c more ih =>
    exact (accounts_step h.inOrder hcard.head).follows.append (ih (h.step c) hcard.tail)

/-- No implicit transaction is left open by a command. -/
theorem Reachable.bracket_ne_implicit (h : s.Reachable) (entries bytes : Nat) :
    s.card.memory.bracket ≠ .opened true entries bytes := by
  intro himplicit
  unfold Memory.bracket at himplicit
  split at himplicit
  · cases himplicit
  · have hstate := (Bracket.opened.inj himplicit).1
    exact h.sound.settled (eq_of_beq hstate)

theorem follows_closed (h : s.Reachable) (hdepth : s.card.transactionDepth = 0)
    (hcard : KeepsCard s cs) :
    Bracket.Follows .closed (events s cs) (run s cs).2.card.memory.bracket := by
  have hfollows := h.follows_run hcard
  rw [Memory.bracket_of_idle (depth_eq_zero_iff.mp hdepth)] at hfollows
  exact hfollows

/-- What an observer receives who is there for a run. -/
def observed (s : Session μ) (cs : List (Command μ)) : List Event :=
  events (step .installObserver s).state cs

theorem follows_observed (hreachable : s.Reachable) (hdepth : s.card.transactionDepth = 0)
    (hcard : KeepsCard (step .installObserver s).state cs) :
    Bracket.Follows .closed (observed s cs)
      (run s (.installObserver :: cs)).2.card.memory.bracket :=
  follows_closed (hreachable.step .installObserver) hdepth hcard

/-- An observer that is removed tells what it received. -/
theorem results_observed (hcs : ∀ command ∈ cs, command.isObserving = false) :
    (run s (.installObserver :: cs ++ [.removeObserver])).1 =
      .ok .done :: (run (step .installObserver s).state cs).1 ++ [.ok (.events (observed s cs))] := by
  have hinstalled : (step .installObserver s).state.telemetry.observers =
      [] :: s.telemetry.observers := rfl
  have hobservers := observers_run hcs hinstalled
  have hremove : (step .removeObserver (run (step .installObserver s).state cs).2).result =
      .ok (.events (observed s cs)) := by
    show Except.ok (Reply.events (Telemetry.remove _).1) = _
    unfold Telemetry.remove
    rw [hobservers]
    rfl
  rw [List.cons_append, run, run_append]
  exact congrArg (fun r => Except.ok Reply.done ::
    ((run (step .installObserver s).state cs).1 ++ [r])) hremove

/-- The events of a run on one card are a faithful trace of its transactions. An observer is
installed when no transaction is open, and it is the innermost one until it is removed; in between
the card stays in its place. Then it receives the events of all the commands, in order. Each of them
has its place between those before and those after it: a begin comes where nothing is open, a commit
closes a bracket that was opened with the same flag and counts the undo entries in it and their
bytes, a rollback counts the entries; an entry is logged inside a bracket only; an overflow comes
inside a bracket and right before the rollback for it, and a loss of power right before the rollback
for it, if a transaction is open, and the clearing of transient memory. In the end a bracket is open
exactly if the depth is 1, and after no command is an implicit one. -/
theorem observed_events_fit (hreachable : s.Reachable) (hdepth : s.card.transactionDepth = 0)
    (hcs : ∀ command ∈ cs, command.isObserving = false)
    (hcard : KeepsCard (step .installObserver s).state cs) :
    (run s (.installObserver :: cs ++ [.removeObserver])).1 =
        .ok .done :: (run (step .installObserver s).state cs).1 ++
          [.ok (.events (observed s cs))] ∧
      (∀ {before after e}, observed s cs = before ++ e :: after → e.Fits before after) ∧
      ((Event.unclosed (observed s cs)).isSome = true ↔
        (run s (.installObserver :: cs)).2.card.transactionDepth = 1) ∧
      ∀ {first rest}, cs = first ++ rest → ∀ inside,
        Event.unclosed (observed s first) ≠ some (true, inside) := by
  have hfollows := follows_observed hreachable hdepth hcard
  refine ⟨results_observed hcs, fun heq => hfollows.fits (Memory.isAtRest_bracket _) heq, ?_, ?_⟩
  · rw [hfollows.stands.isSome_eq, Memory.isOpen_bracket, Bool.not_eq_true', ← depth_eq_one_iff,
      beq_iff_eq]
  · intro first rest heq inside hunclosed
    rw [heq] at hcard
    have hfirst := follows_observed hreachable hdepth hcard.left
    have hnot := (hreachable.run (.installObserver :: first)).bracket_ne_implicit
    have hstands := hfirst.stands
    rw [hunclosed] at hstands
    exact hstands.ne_implicit (Memory.isAtRest_bracket _) hnot

/-- A write in a transaction, and another one that loses power. -/
def tornCommands : List (Command ConstantScore) :=
  [.begin, .setShort ⟨1⟩ 0 7, .injectPowerLoss 1, .setShort ⟨1⟩ 2 9]

/-- Their observer sees the loss of power between the entries of the log and the rollback. -/
theorem observed_events_fit_tornCommands :
    Event.powerLost.Fits [.begun false, .undoLogged 10, .undoLogged 10]
      [.aborted .powerLoss 2, .transientsCleared 0] := by
  have hevents : observed oneArray tornCommands = [.begun false, .undoLogged 10, .undoLogged 10] ++
      .powerLost :: [.aborted .powerLoss 2, .transientsCleared 0] := by rfl
  have hreachable : oneArray.Reachable := reachable_fresh.run _
  exact (observed_events_fit hreachable (by rfl) (by decide)
    (keepsCard_of_plain (by decide))).2.1 hevents

end Session

end SmartCard
