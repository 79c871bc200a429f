-- SUMMARY: Runs taken apart into calls: each command with the session in which it is carried out.
import SmartCard.Proofs.Session.Reachable

/-!
# Runs taken apart

A run is a list of commands, but what is said about it is often about each command in its place, or
adds up what the commands report. For this a run is taken apart into calls (`Session.calls`). A run
stays on its card if no command powers another one up (`Command.PowersUp`).
-/

namespace SmartCard

variable {μ : Type}

/-- Whether a command succeeds in powering a card up from an image. -/
def Command.PowersUp (s : Session μ) : Command μ → Prop
  | .restore config bytes => ((Card.restore config bytes).exec s.card).1 = .ok ()
  | _ => False

/-- A command, and the session in which it is carried out. -/
structure Call (μ : Type) where
  session : Session μ
  command : Command μ

variable [Matcher μ]

def Call.outcome (call : Call μ) : Outcome (Session μ) Reply :=
  Session.step call.command call.session

namespace Session

variable {s : Session μ} {P Q : Session μ → Command μ → Prop} {command : Command μ}
  {cs cs' : List (Command μ)}

/-- The calls of a run. -/
def calls (s : Session μ) : List (Command μ) → List (Call μ)
  | [] => []
  | c :: more => ⟨s, c⟩ :: calls (step c s).state more

/-- What a run reports to whoever observes it. -/
def events (s : Session μ) (cs : List (Command μ)) : List Event :=
  (calls s cs).flatMap (·.outcome.events)

/-- Whether something can be said of each command of a run in its place. -/
def Throughout (P : Session μ → Command μ → Prop) (s : Session μ) (cs : List (Command μ)) : Prop :=
  ∀ call ∈ calls s cs, P call.session call.command

theorem run_append (s : Session μ) (cs cs' : List (Command μ)) :
    run s (cs ++ cs') =
      ((run s cs).1 ++ (run (run s cs).2 cs').1, (run (run s cs).2 cs').2) := by
  induction cs generalizing s with
  | nil => rfl
  | cons c more ih =>
    show ((step c s).result :: (run (step c s).state (more ++ cs')).1,
      (run (step c s).state (more ++ cs')).2) = _
    rw [ih]
    rfl

theorem calls_append (s : Session μ) (cs cs' : List (Command μ)) :
    calls s (cs ++ cs') = calls s cs ++ calls (run s cs).2 cs' := by
  induction cs generalizing s with
  | nil => rfl
  | cons c more ih => exact congrArg (List.cons ⟨s, c⟩) (ih _)

theorem events_cons (s : Session μ) (c : Command μ) (more : List (Command μ)) :
    events s (c :: more) = (step c s).events ++ events (step c s).state more := rfl

theorem results_run (s : Session μ) (cs : List (Command μ)) :
    (run s cs).1 = (calls s cs).map (·.outcome.result) := by
  induction cs generalizing s with
  | nil => rfl
  | cons c more ih => exact congrArg (List.cons _) (ih _)

theorem commands_calls (s : Session μ) (cs : List (Command μ)) :
    (calls s cs).map Call.command = cs := by
  induction cs generalizing s with
  | nil => rfl
  | cons c more ih => exact congrArg (List.cons c) (ih _)

theorem Reachable.of_call (h : s.Reachable) {call : Call μ} (hcall : call ∈ calls s cs) :
    call.session.Reachable := by
  induction cs generalizing s with
  | nil => cases hcall
  | cons c more ih =>
    rcases List.mem_cons.mp hcall with rfl | hmore
    · exact h
    · exact ih (h.step c) hmore

namespace Throughout

/-- What can be said of each command wherever it stands. -/
theorem of_forall (h : ∀ c ∈ cs, ∀ s, P s c) : Throughout P s cs := by
  intro call hcall
  refine h call.command ?_ call.session
  rw [← commands_calls s cs]
  exact List.mem_map_of_mem hcall

theorem head (h : Throughout P s (command :: cs)) : P s command := h ⟨s, command⟩ (.head _)

theorem tail (h : Throughout P s (command :: cs)) : Throughout P (Session.step command s).state cs :=
  fun call hcall => h call (.tail _ hcall)

theorem left (h : Throughout P s (cs ++ cs')) : Throughout P s cs := by
  intro call hcall
  refine h call ?_
  rw [calls_append]
  exact List.mem_append_left _ hcall

end Throughout

/-- Whether the card stays in its place throughout a run. -/
def KeepsCard (s : Session μ) (cs : List (Command μ)) : Prop :=
  Throughout (fun s command => ¬command.PowersUp s) s cs

omit [Matcher μ] in
theorem not_powersUp (hrestore : command.isRestore = false) : ¬command.PowersUp s := by
  intro hpowers
  cases command
  case restore => cases hrestore
  all_goals exact hpowers

theorem keepsCard_of_plain (h : ∀ c ∈ cs, c.isRestore = false) : KeepsCard s cs :=
  .of_forall fun c hc _ => not_powersUp (h c hc)

end Session

end SmartCard
