-- SUMMARY: Observers around parts of a run change nothing that it does, and each event reaches one receiver.
import SmartCard.Proofs.Session.Observation

/-!
# Scopes

A `Script` issues commands and installs observers around parts of them, one within the other. Two
scripts that issue the same commands do the same to matching sessions, however they are scoped
(`Session.seen_muted`), and every event goes to the observer of the innermost scope around its
command, or to the totals if there is none (`Session.telemetry_after`).
-/

namespace SmartCard

variable {μ : Type}

/-- Commands with observers around parts of them. -/
inductive Script (μ : Type) where
  | done
  | call (command : Command μ) (rest : Script μ)
  /-- An observer around the body, removed at its end. -/
  | scope (body rest : Script μ)

/-- Events reach one receiver, and nothing else of the telemetry changes: the innermost observer, or
the totals if none is installed. -/
inductive Telemetry.Delivers (events : List Event) : Telemetry → Telemetry → Prop where
  | observed {totals seen outer} :
      Delivers events ⟨totals, seen :: outer⟩ ⟨totals, (seen ++ events) :: outer⟩
  | counted {totals} : Delivers events ⟨totals, []⟩ ⟨events.foldl Totals.record totals, []⟩

namespace Telemetry

theorem delivers_receive (t : Telemetry) (events : List Event) :
    Delivers events t (t.receive events) := by
  obtain ⟨totals, _ | ⟨seen, outer⟩⟩ := t
  · exact .counted
  · exact .observed

theorem receive_nil (t : Telemetry) : t.receive [] = t := by
  obtain ⟨totals, _ | ⟨seen, outer⟩⟩ := t
  · rfl
  · show (⟨totals, (seen ++ []) :: outer⟩ : Telemetry) = _
    rw [List.append_nil]

theorem receive_append (t : Telemetry) (first second : List Event) :
    t.receive (first ++ second) = (t.receive first).receive second := by
  obtain ⟨totals, _ | ⟨seen, outer⟩⟩ := t
  · show (⟨(first ++ second).foldl _ totals, []⟩ : Telemetry) =
      ⟨second.foldl _ (first.foldl _ totals), []⟩
    rw [List.foldl_append]
  · show (⟨totals, (seen ++ (first ++ second)) :: outer⟩ : Telemetry) =
      ⟨totals, (seen ++ first ++ second) :: outer⟩
    rw [List.append_assoc]

/-- What an observer received is what was reported while it was the innermost, and once it is
removed the telemetry is as it was. -/
theorem remove_receive_install (t : Telemetry) (events : List Event) :
    (t.install.receive events).remove = (events, t) := by
  show (([] ++ events, ⟨t.totals, t.observers⟩) : List Event × Telemetry) = _
  rw [List.nil_append]

end Telemetry

namespace Command

theorem isTelemetric_of_isOperation {c : Command μ} (h : c.isOperation = true) :
    c.isTelemetric = false := by
  cases c with
  | installObserver | removeObserver | resetTotals => cases h
  | _ => rfl

theorem isOperation_muted (c : Command μ) : c.muted.isOperation = c.isOperation := by
  cases c <;> rfl

end Command

namespace Script

/-- The commands that carry a script out. -/
def commands : Script μ → List (Command μ)
  | done => []
  | call command rest => command :: rest.commands
  | scope body rest => .installObserver :: (body.commands ++ .removeObserver :: rest.commands)

/-- The commands that a script issues, whatever their scopes. -/
def operations : Script μ → List (Command μ)
  | done => []
  | call command rest => command :: rest.operations
  | scope body rest => body.operations ++ rest.operations

/-- A script that is about the card and its templates, and leaves the telemetry to its scopes. -/
def Plain (p : Script μ) : Prop := ∀ c ∈ p.operations, c.isOperation = true

theorem Plain.filter_commands {p : Script μ} (h : p.Plain) :
    p.commands.filter Command.isOperation = p.operations := by
  induction p with
  | done => rfl
  | call c rest ih =>
    obtain ⟨hc, hrest⟩ := List.forall_mem_cons.mp h
    show List.filter Command.isOperation (c :: rest.commands) = c :: rest.operations
    rw [List.filter_cons_of_pos hc, ih hrest]
  | scope body rest ihbody ihrest =>
    obtain ⟨hbody, hrest⟩ := List.forall_mem_append.mp h
    show List.filter Command.isOperation
      (.installObserver :: (body.commands ++ .removeObserver :: rest.commands)) = _
    rw [List.filter_cons_of_neg (by simp [Command.isOperation]), List.filter_append, ihbody hbody,
      List.filter_cons_of_neg (by simp [Command.isOperation]), ihrest hrest]
    rfl

/-- Opening and closing scopes asks for no debug lines. -/
theorem isMute_commands {p : Script μ} (h : ∀ c ∈ p.operations, c.IsMute) :
    ∀ c ∈ p.commands, c.IsMute := by
  induction p with
  | done => exact h
  | call c rest ih =>
    obtain ⟨hc, hrest⟩ := List.forall_mem_cons.mp h
    exact List.forall_mem_cons.mpr ⟨hc, ih hrest⟩
  | scope body rest ihbody ihrest =>
    obtain ⟨hbody, hrest⟩ := List.forall_mem_append.mp h
    refine List.forall_mem_cons.mpr ⟨trivial, List.forall_mem_append.mpr ⟨ihbody hbody, ?_⟩⟩
    exact List.forall_mem_cons.mpr ⟨trivial, ihrest hrest⟩

variable [Matcher μ]

/-- The session that a script leaves behind. -/
def after (p : Script μ) (s : Session μ) : Session μ := (Session.run s p.commands).2

/-- The events of the commands that stand in a script itself, and not in a scope within it. -/
def direct : Script μ → Session μ → List Event
  | done, _ => []
  | call c rest, s => (Session.step c s).events ++ rest.direct (Session.step c s).state
  | scope body rest, s => rest.direct ((scope body done).after s)

theorem after_call (c : Command μ) (rest : Script μ) (s : Session μ) :
    (call c rest).after s = rest.after (Session.step c s).state := rfl

/-- A scope is left by removing its observer. -/
theorem after_scope (body rest : Script μ) (s : Session μ) :
    (scope body rest).after s = rest.after (Session.step .removeObserver
      (body.after (Session.step .installObserver s).state)).state := by
  show (Session.run (Session.step .installObserver s).state
    (body.commands ++ .removeObserver :: rest.commands)).2 = _
  rw [Session.run_append]
  rfl

end Script

namespace Session

variable {s s₁ s₂ : Session μ} [Matcher μ]

/-! ## Telemetry -/

theorem telemetry_install (s : Session μ) :
    (step .installObserver s).state.telemetry = s.telemetry.install := by
  show s.telemetry.install.receive [] = _
  exact Telemetry.receive_nil _

theorem telemetry_remove (s : Session μ) :
    (step .removeObserver s).state.telemetry = s.telemetry.remove.2 := by
  show s.telemetry.remove.2.receive [] = _
  exact Telemetry.receive_nil _

/-- The innermost receiver before a script receives the events of the commands that stand in the
script itself, and the observers of its scopes are gone in the end. -/
theorem telemetry_after {p : Script μ} (hplain : p.Plain) (s : Session μ) :
    (p.after s).telemetry = s.telemetry.receive (p.direct s) := by
  induction p generalizing s with
  | done => exact (Telemetry.receive_nil _).symm
  | call c rest ih =>
    obtain ⟨hc, hrest⟩ := List.forall_mem_cons.mp hplain
    rw [Script.after_call, ih hrest, telemetry_step (Command.isTelemetric_of_isOperation hc),
      Script.direct, Telemetry.receive_append]
  | scope body rest ihbody ihrest =>
    obtain ⟨hbody, hrest⟩ := List.forall_mem_append.mp hplain
    have hscope : ((Script.scope body .done).after s).telemetry = s.telemetry := by
      rw [Script.after_scope]
      show (step .removeObserver (body.after (step .installObserver s).state)).state.telemetry = _
      rw [telemetry_remove, ihbody hbody, telemetry_install, Telemetry.remove_receive_install]
    have hafter : (Script.scope body rest).after s =
        rest.after ((Script.scope body .done).after s) := by
      rw [Script.after_scope, Script.after_scope]
      rfl
    rw [hafter, ihrest hrest, hscope, Script.direct]

/-- The observer of a scope received the events of the commands that stand in the scope itself. -/
theorem removed_scope {body : Script μ} (hplain : body.Plain) (s : Session μ) :
    (step .removeObserver (body.after (step .installObserver s).state)).result =
      .ok (.events (body.direct (step .installObserver s).state)) := by
  have htelemetry := telemetry_after hplain (step .installObserver s).state
  rw [telemetry_install] at htelemetry
  show Except.ok (Reply.events (body.after (step .installObserver s).state).telemetry.remove.1) = _
  rw [htelemetry, Telemetry.remove_receive_install]

/-! ## What is seen of a run -/

/-- What the commands of a run that are not about the telemetry show: the result of each, the events
it reported and the memory it left behind. -/
def seen (s : Session μ) (cs : List (Command μ)) :
    List (Except Fault Reply × List Event × Memory) :=
  ((calls s cs).filter (·.command.isOperation)).map fun call =>
    (call.outcome.result, call.outcome.events, call.outcome.state.card.memory)

theorem seen_cons_of_operation {c : Command μ} (hc : c.isOperation = true) (s : Session μ)
    (more : List (Command μ)) :
    seen s (c :: more) =
      ((step c s).result, (step c s).events, (step c s).state.card.memory) ::
        seen (step c s).state more := by
  simp only [seen, calls, List.filter_cons, hc, if_true, List.map_cons]
  rfl

theorem seen_cons_of_telemetry {c : Command μ} (hc : c.isOperation = false) (s : Session μ)
    (more : List (Command μ)) : seen s (c :: more) = seen (step c s).state more := by
  simp only [seen, calls, List.filter_cons, hc, Bool.false_eq_true, if_false]

/-- What is seen of a run does not depend on the telemetry, on commands about it, or on debug
lines. -/
theorem seen_muted (h : s₁.Matches s₂) (cs : List (Command μ)) :
    seen s₁ cs = seen s₂ ((cs.filter Command.isOperation).map Command.muted) := by
  induction cs generalizing s₁ s₂ with
  | nil => rfl
  | cons c more ih =>
    rcases hc : c.isOperation with _ | _
    · rw [seen_cons_of_telemetry hc, List.filter_cons_of_neg (Bool.eq_false_iff.mp hc)]
      exact ih ((matches_step hc s₁).trans h)
    · have hends := agrees_step hc h
      have hmuted : c.muted.isOperation = true := by rw [Command.isOperation_muted, hc]
      rw [seen_cons_of_operation hc, List.filter_cons_of_pos hc, List.map_cons,
        seen_cons_of_operation hmuted, hends.result, hends.events, hends.state.card.memory,
        ih hends.state]

theorem notes_calls {cs : List (Command μ)} (hs : s.IsMute) (hcs : ∀ c ∈ cs, c.IsMute) :
    ∀ call ∈ calls s cs, call.outcome.notes = [] := by
  induction cs generalizing s with
  | nil => exact fun _ h => nomatch h
  | cons c more ih =>
    obtain ⟨hc, hmore⟩ := List.forall_mem_cons.mp hcs
    have hstep := mute_step hc hs
    exact List.forall_mem_cons.mpr ⟨hstep.1, ih hstep.2 hmore⟩

omit [Matcher μ] in
/-- New cards with configurations that differ at most in their debug lines match, or are refused for
the same reason. -/
theorem matches_new {c₁ c₂ : Config} (h : c₁.withDebug false = c₂.withDebug false)
    (t₁ t₂ : Telemetry) :
    (∃ e, Card.new c₁ = .error e ∧ Card.new c₂ = .error e) ∨
      ∃ a b, Card.new c₁ = .ok a ∧ Card.new c₂ = .ok b ∧
        Matches (μ := μ) ⟨a, [], t₁⟩ ⟨b, [], t₂⟩ := by
  have hvalidate : c₁.validate = c₂.validate := by
    rw [← Card.validate_withDebug c₁ false, h, Card.validate_withDebug]
  have hmemory : Memory.empty c₁ = Memory.empty c₂ := by
    have hmuted : ∀ c : Config, Memory.empty (c.withDebug false) = Memory.empty c := fun _ => rfl
    rw [← hmuted c₁, h, hmuted]
  unfold Card.new
  rw [hvalidate]
  rcases c₂.validate with e | _
  · exact .inl ⟨.config e, rfl, rfl⟩
  · exact .inr ⟨.blank c₁, .blank c₂, rfl, rfl, ⟨h, hmemory⟩, rfl⟩

/-- How a card is watched changes nothing of what it does.
- New cards match if their configurations differ at most in the debug lines.
- From matching sessions, with any telemetry, two scripts that issue the same commands but for the
  debug lines show the same results, events and memory, command by command and however they are
  scoped.
- A card that is asked for no debug lines prints none.
- The events of a command, also of one that fails, reach one receiver.
- Over a script, so do the events of the commands that stand in the script itself, and the observer
  of a scope returns those of its body. -/
theorem watching_changes_nothing :
    (∀ c₁ c₂ : Config, c₁.withDebug false = c₂.withDebug false → ∀ t₁ t₂ : Telemetry,
      (∃ e, Card.new c₁ = .error e ∧ Card.new c₂ = .error e) ∨
        ∃ a b, Card.new c₁ = .ok a ∧ Card.new c₂ = .ok b ∧
          Matches (μ := μ) ⟨a, [], t₁⟩ ⟨b, [], t₂⟩) ∧
      (∀ s₁ s₂ : Session μ, s₁.Matches s₂ → ∀ p₁ p₂ : Script μ, p₁.Plain → p₂.Plain →
        p₁.operations.map Command.muted = p₂.operations.map Command.muted →
          seen s₁ p₁.commands = seen s₂ p₂.commands) ∧
      (∀ s : Session μ, s.IsMute → ∀ p : Script μ, (∀ c ∈ p.operations, c.IsMute) →
        ∀ call ∈ calls s p.commands, call.outcome.notes = []) ∧
      (∀ (s : Session μ) (c : Command μ), c.isOperation = true →
        Telemetry.Delivers (step c s).events s.telemetry (step c s).state.telemetry) ∧
      ∀ (s : Session μ) (p : Script μ), p.Plain →
        Telemetry.Delivers (p.direct s) s.telemetry (p.after s).telemetry ∧
          (step .removeObserver (p.after (step .installObserver s).state)).result =
            .ok (.events (p.direct (step .installObserver s).state)) := by
  refine ⟨fun c₁ c₂ h t₁ t₂ => matches_new h t₁ t₂,
    fun s₁ s₂ hmatch p₁ p₂ hplain₁ hplain₂ hsame => ?_,
    fun s hs p hp => notes_calls hs (Script.isMute_commands hp), fun s c hc => ?_,
    fun s p hplain => ⟨?_, removed_scope hplain s⟩⟩
  · rw [seen_muted hmatch p₁.commands, seen_muted (.refl s₂) p₂.commands, hplain₁.filter_commands,
      hplain₂.filter_commands, hsame]
  · rw [telemetry_step (Command.isTelemetric_of_isOperation hc)]
    exact Telemetry.delivers_receive _ _
  · rw [telemetry_after hplain]
    exact Telemetry.delivers_receive _ _

/-- A transaction with two commands in it that fail, without scopes. -/
def bareScript : Script ConstantScore :=
  .call .begin (.call .begin (.call (.restore {} []) (.call .commit .done)))

/-- The same commands in nested scopes, and with debug lines asked for. -/
def scopedScript : Script ConstantScore :=
  .scope (.call .begin (.scope (.call .begin .done) .done))
    (.scope (.call (.restore { debug := true } []) .done) (.call .commit .done))

/-- A new card that prints debug lines, with totals of earlier runs and an observer installed. -/
def watched : Session ConstantScore :=
  ⟨.blank { debug := true }, [], ⟨{ begins := 3 }, [[]]⟩⟩

/-- The two scripts on new cards, one of them watched. -/
theorem watching_changes_nothing_fresh :
    (∃ a b, Card.new {} = .ok a ∧ Card.new { debug := true } = .ok b ∧
      Matches (μ := ConstantScore) ⟨a, [], {}⟩ ⟨b, [], watched.telemetry⟩) ∧
      seen fresh bareScript.commands = seen watched scopedScript.commands ∧
      (∀ call ∈ calls fresh bareScript.commands, call.outcome.notes = []) ∧
      Telemetry.Delivers (step .begin watched).events watched.telemetry
        (step .begin watched).state.telemetry ∧
      Telemetry.Delivers (scopedScript.direct watched) watched.telemetry
        (scopedScript.after watched).telemetry := by
  obtain ⟨hnew, hseen, hmute, hstep, hscript⟩ := watching_changes_nothing (μ := ConstantScore)
  have hbare : bareScript.Plain := List.all_eq_true.mp rfl
  have hscoped : scopedScript.Plain := List.all_eq_true.mp rfl
  refine ⟨?_, hseen fresh watched ⟨⟨rfl, rfl⟩, rfl⟩ _ _ hbare hscoped rfl, hmute fresh rfl _ ?_,
    hstep watched .begin rfl, (hscript watched _ hscoped).1⟩
  · rcases hnew {} { debug := true } rfl {} watched.telemetry with ⟨e, he, _⟩ | hmatch
    · cases he
    · exact hmatch
  · simp only [bareScript, Script.operations, List.forall_mem_cons]
    exact ⟨trivial, trivial, rfl, trivial, by simp⟩

end Session

end SmartCard
