-- SUMMARY: Every event reaches the innermost observer, or else the totals, and nothing else changes either.
import SmartCard.Proofs.Session.Runs

/-!
# Delivery of events

Commands that are not about telemetry leave it alone but for the events they report. So the
innermost observer of a run receives the events of the run (`Session.observers_run`), and without
observers the totals record them (`Session.totals_run`).
-/

namespace SmartCard

variable {μ α β : Type}

namespace Command

/-- Whether a command installs or removes an observer. -/
def isObserving : Command μ → Bool
  | .installObserver | .removeObserver => true
  | _ => false

/-- Whether a command changes the telemetry by itself. -/
def isTelemetric : Command μ → Bool
  | .installObserver | .removeObserver | .resetTotals => true
  | _ => false

end Command

namespace Session

variable {s : Session μ}

theorem telemetry_onCard (f : α → β) (x : Act Card α) (s : Session μ) :
    ((f <$> onCard x).exec s).2.telemetry = s.telemetry := by
  rw [Act.exec_map]
  rfl

theorem telemetry_onBench (position : Nat) (f : α → β) (x : Act (Bench μ) α) (s : Session μ) :
    ((f <$> onBench position x).exec s).2.telemetry = s.telemetry := by
  rw [Act.exec_map, exec_onBench]
  rcases s.templates[position]? with _ | t <;> rfl

theorem telemetry_askCard (f : α → β) (g : Card → Except Fault α) (s : Session μ) :
    ((f <$> askCard g).exec s).2.telemetry = s.telemetry := by
  rw [Act.exec_map]
  rfl

theorem telemetry_makeTemplate (bioType limit : UInt8) (matcher : μ) (s : Session μ) :
    ((makeTemplate bioType limit matcher).exec s).2.telemetry = s.telemetry := by
  unfold makeTemplate
  rw [Act.exec_bind, onCard, Act.exec_zoom]
  rcases ((Template.make bioType limit matcher).exec s.card).1 with _ | _ <;> rfl

variable [Matcher μ] {command : Command μ} {cs : List (Command μ)}

theorem telemetry_perform (hc : command.isTelemetric = false) (s : Session μ) :
    ((perform command).exec s).2.telemetry = s.telemetry := by
  cases command with
  | begin | commit | abort | makePersistent | makeTransient | makeSensitive | setElement
  | loadElements | copy | fill | compare | find | setShort | setInt | assertIntegrity | clearArray
  | reset | deselect | injectPowerLoss | injectBitFlip | restore => exact telemetry_onCard _ _ s
  | descriptor | isTransient | availableMemory | availableMemoryExtended | getElement | elements
  | rawBytes | getShort | getInt | isSensitive => exact telemetry_askCard _ _ s
  | templateInit | templateUpdate | templateFinish | templateReset | templateInitMatch
  | templateMatch | templateResetTryLimit | templateTries | templatePublicData =>
    exact telemetry_onBench _ _ _ s
  | makeTemplate => exact telemetry_makeTemplate _ _ _ s
  | capacities | image | totals => rfl
  | installObserver | removeObserver | resetTotals => cases hc

theorem telemetry_step (hc : command.isTelemetric = false) (s : Session μ) :
    (step command s).state.telemetry = s.telemetry.receive (step command s).events :=
  congrArg (Telemetry.receive · (step command s).events) (telemetry_perform hc s)

/-! ## Observers -/

theorem observers_step (hc : command.isObserving = false) {seen : List Event}
    {outer : List (List Event)} (hobserved : s.telemetry.observers = seen :: outer) :
    (step command s).state.telemetry.observers = (seen ++ (step command s).events) :: outer := by
  have hreceive : ∀ t : Telemetry, t.observers = seen :: outer →
      (t.receive (step command s).events).observers =
        (seen ++ (step command s).events) :: outer := by
    intro t ht
    unfold Telemetry.receive
    rw [ht]
  rcases htelemetric : command.isTelemetric with _ | _
  · rw [telemetry_step htelemetric]
    exact hreceive s.telemetry hobserved
  · cases command
    case resetTotals => exact hreceive s.telemetry.reset hobserved
    case installObserver => cases hc
    case removeObserver => cases hc
    all_goals cases htelemetric

/-- The innermost observer receives the events of a run, in order. -/
theorem observers_run (hcs : ∀ c ∈ cs, c.isObserving = false) {seen : List Event}
    {outer : List (List Event)} (hobserved : s.telemetry.observers = seen :: outer) :
    (run s cs).2.telemetry.observers = (seen ++ events s cs) :: outer := by
  induction cs generalizing s seen with
  | nil =>
    rw [events, calls, List.flatMap_nil, List.append_nil]
    exact hobserved
  | cons c more ih =>
    rw [events_cons, ← List.append_assoc]
    exact ih (fun c hmem => hcs c (.tail _ hmem)) (observers_step (hcs c (.head _)) hobserved)

/-! ## Totals -/

theorem telemetry_step_unobserved (hinstall : command ≠ .installObserver)
    (hreset : command ≠ .resetTotals) {totals : Totals} (hnone : s.telemetry = ⟨totals, []⟩) :
    (step command s).state.telemetry =
      ⟨(step command s).events.foldl Totals.record totals, []⟩ := by
  rcases htelemetric : command.isTelemetric with _ | _
  · rw [telemetry_step htelemetric, hnone]
    rfl
  · cases command
    case installObserver => exact absurd rfl hinstall
    case resetTotals => exact absurd rfl hreset
    case removeObserver =>
      show s.telemetry.remove.2.receive [] = ⟨totals, []⟩
      rw [hnone]
      rfl
    all_goals cases htelemetric

/-- Without observers the totals record the events of a run, in order. -/
theorem totals_run (hinstall : .installObserver ∉ cs) (hreset : .resetTotals ∉ cs)
    {totals : Totals} (hnone : s.telemetry = ⟨totals, []⟩) :
    (run s cs).2.telemetry = ⟨(events s cs).foldl Totals.record totals, []⟩ := by
  induction cs generalizing s totals with
  | nil => exact hnone
  | cons c more ih =>
    rw [List.mem_cons, not_or] at hinstall hreset
    rw [events_cons, List.foldl_append]
    exact ih hinstall.2 hreset.2
      (telemetry_step_unobserved (Ne.symm hinstall.1) (Ne.symm hreset.1) hnone)

end Session

end SmartCard
