-- SUMMARY: Each template of a session goes through its lifecycle, whatever is done to the card in between.
import SmartCard.Proofs.Session.Counters
import SmartCard.Proofs.Template.Lifecycle

/-!
# Lifecycles in a session

The commands that use a template are transitions of its lifecycle automaton, and no other command
moves it, be it for the card, for another template or for the telemetry. Nothing is asked of the
card: it may be in a transaction, lose power or be replaced by another one between any two uses.
-/

namespace SmartCard

variable {μ : Type}

namespace Command

/-- The template that a command uses, by position, and how. -/
def use? : Command μ → Option (Nat × Template.Use)
  | .templateInit position data => some (position, .init data)
  | .templateUpdate position data => some (position, .update data)
  | .templateFinish position => some (position, .finish)
  | .templateInitMatch position candidate => some (position, .initMatch candidate)
  | .templateMatch position candidate => some (position, .matchData candidate)
  | .templateReset position => some (position, .reset)
  | .templateResetTryLimit position limit => some (position, .resetTryLimit limit)
  | _ => none

/-- Whether a command begins or ends an enrolment of the template at a position. -/
def boundsEnrolment (position : Nat) (command : Command μ) : Bool :=
  match command.use? with
  | some (other, u) => other == position && u.boundsEnrolment
  | none => false

/-- What a command adds to an enrolment of the template at a position. -/
def added (position : Nat) (command : Command μ) : List UInt8 :=
  match command.use? with
  | some (other, u) => if other = position then u.added else []
  | none => []

end Command

/-- The reply to a use of a template. -/
def Reply.ofAnswer : Option Int16 → Reply
  | none => .done
  | some score => .short score

namespace Session

variable [Matcher μ] {s s₀ : Session μ} {t : Template μ} {command : Command μ} {position : Nat}
  {u : Template.Use} {l : Lifecycle}

/-- Where a template at a position stands after a command, if it stood at `l`. -/
def lifecycleAfter (position : Nat) (s : Session μ) (l : Lifecycle) (command : Command μ) :
    Lifecycle :=
  match command.use?, s.templates[position]? with
  | some (other, u), some t =>
    if other = position then (l.next (Bench.surroundings ⟨s.card, t⟩) u).target else l
  | _, _ => l

/-- Where a template at a position stands after commands, if it stood at `l`. -/
def lifecycle (position : Nat) (s : Session μ) (l : Lifecycle) : List (Command μ) → Lifecycle
  | [] => l
  | c :: more => lifecycle position (step c s).state (lifecycleAfter position s l c) more

/-! ## Commands -/

omit [Matcher μ] in
theorem set_of_getElem? {α : Type} {xs : List α} {i : Nat} {x : α} (h : xs[i]? = some x) :
    xs.set i x = xs := by
  obtain ⟨hi, rfl⟩ := List.getElem?_eq_some_iff.mp h
  exact List.set_getElem_self hi

omit [Matcher μ] in
/-- The reply to a use is made of its answer. -/
theorem exec_map_onBench {α : Type} {x : Act (Bench μ) α} {f : α → Reply} {g : α → Option Int16}
    (hreply : ∀ a, f a = .ofAnswer (g a)) (ht : s.templates[position]? = some t) :
    (f <$> onBench position x).exec s =
      (((g <$> x).exec ⟨s.card, t⟩).1.map Reply.ofAnswer,
        { s with
          card := ((g <$> x).exec ⟨s.card, t⟩).2.card
          templates := s.templates.set position ((g <$> x).exec ⟨s.card, t⟩).2.template }) := by
  rw [Act.exec_map, Act.exec_map, exec_onBench, ht]
  dsimp only
  rcases (x.exec ⟨s.card, t⟩).1 with e | a
  · rfl
  · show (Except.ok (f a), _) = (Except.ok (Reply.ofAnswer (g a)), _)
    rw [hreply]

/-- What a command that uses a template does to the session. -/
theorem exec_perform_use (hu : command.use? = some (position, u))
    (ht : s.templates[position]? = some t) :
    (perform command).exec s = (((Bench.use u).exec ⟨s.card, t⟩).1.map Reply.ofAnswer,
      { s with
        card := ((Bench.use u).exec ⟨s.card, t⟩).2.card
        templates := s.templates.set position ((Bench.use u).exec ⟨s.card, t⟩).2.template }) := by
  cases command <;> cases hu
  all_goals exact exec_map_onBench (fun _ => rfl) ht

/-- A use that is refused changes neither the card nor any template. -/
structure Refused (s : Session μ) (u : Template.Use) (command : Command μ) (e : Fault) : Prop where
  result : (step command s).result = .error e
  category : e.category = .reasoned (.bio (Lifecycle.reasonOf u))
  card : (step command s).state.card = s.card
  templates : (step command s).state.templates = s.templates

/-- A command uses a template that stands at `l`, and takes it along a transition. The matcher is
asked only about a reference that is enrolled. -/
structure Undergoes (position : Nat) (s : Session μ) (t : Template μ) (l : Lifecycle)
    (u : Template.Use) (command : Command μ) (transition : Transition) : Prop where
  answer : (step command s).result = transition.answer.map Reply.ofAnswer
  target : ∃ t', (step command s).state.templates[position]? = some t' ∧
    t'.Encodes transition.target ∧ t'.matcher = Matcher.after t.matcher transition.asked
  asked : ∀ {call}, transition.asked = some call →
    ∃ filled engagement, l = .enrolled call.reference filled engagement
  refused : ∀ {e}, l.Refuses u e → Refused s u command e

theorem refused_use (ht : s.templates[position]? = some t) (h : t.Encodes l)
    (hu : command.use? = some (position, u)) {e : Fault} (he : l.Refuses u e) :
    Refused s u command e := by
  have hexec := exec_perform_use hu ht
  rw [Bench.exec_use_of_refused (b := ⟨s.card, t⟩) h he] at hexec
  have htemplates : (step command s).state.templates = s.templates.set position t :=
    congrArg (·.2.templates) hexec
  exact ⟨congrArg Prod.fst hexec, he.category, congrArg (·.2.card) hexec,
    htemplates.trans (set_of_getElem? ht)⟩

theorem undergoes_use (ht : s.templates[position]? = some t) (h : t.Encodes l)
    (hu : command.use? = some (position, u)) :
    Undergoes position s t l u command (l.next (Bench.surroundings ⟨s.card, t⟩) u) := by
  have hexec := exec_perform_use hu ht
  obtain ⟨hanswer, htarget, hmatcher⟩ := Bench.takes_use (b := ⟨s.card, t⟩) h u
  have hresult : (step command s).result =
      ((Bench.use u).exec ⟨s.card, t⟩).1.map Reply.ofAnswer := congrArg Prod.fst hexec
  have htemplates : (step command s).state.templates =
      s.templates.set position ((Bench.use u).exec ⟨s.card, t⟩).2.template :=
    congrArg (·.2.templates) hexec
  refine ⟨hresult.trans (congrArg _ hanswer), ⟨_, ?_, htarget, hmatcher⟩, ?_,
    refused_use ht h hu⟩
  · rw [htemplates]
    exact List.getElem?_set_self (List.getElem?_eq_some_iff.mp ht).1
  · intro call hcall
    obtain ⟨filled, engagement, hl, _⟩ := Lifecycle.next_of_asked hcall
    exact ⟨filled, engagement, hl⟩

omit [Matcher μ] in
theorem templates_askBench {α : Type} (f : α → Reply) (g : Bench μ → Except Fault α)
    (s : Session μ) : ((f <$> onBench position (.query g)).exec s).2.templates = s.templates := by
  rw [Act.exec_map, exec_onBench]
  rcases ht : s.templates[position]? with _ | t
  · rfl
  · exact set_of_getElem? ht

/-- A command that does not use a template leaves it as it is. -/
theorem getElem?_templates_of_unused (ht : s.templates[position]? = some t)
    (hu : ∀ u, command.use? ≠ some (position, u)) :
    (step command s).state.templates[position]? = some t := by
  by_cases hposition : command.position? = some position
  · have htemplates : (step command s).state.templates = s.templates := by
      show ((perform command).exec s).2.templates = s.templates
      cases command
      case templateTries other => exact templates_askBench _ _ s
      case templatePublicData other offset size => exact templates_askBench _ _ s
      all_goals cases hposition
      all_goals exact absurd rfl (hu _)
    rw [htemplates, ht]
  · rw [getElem?_templates_step (List.getElem?_eq_some_iff.mp ht).1 hposition, ht]

/-! ## Runs -/

theorem lifecycle_append (s : Session μ) (l : Lifecycle) (xs ys : List (Command μ)) :
    lifecycle position s l (xs ++ ys) =
      lifecycle position (run s xs).2 (lifecycle position s l xs) ys := by
  induction xs generalizing s l with
  | nil => rfl
  | cons c more ih => exact ih _ _

theorem lifecycleAfter_use (ht : s.templates[position]? = some t)
    (hu : command.use? = some (position, u)) :
    lifecycleAfter position s l command =
      (l.next (Bench.surroundings ⟨s.card, t⟩) u).target := by
  unfold lifecycleAfter
  rw [hu, ht]
  exact if_pos rfl

theorem lifecycleAfter_of_unused (hu : ∀ u, command.use? ≠ some (position, u)) :
    lifecycleAfter position s l command = l := by
  unfold lifecycleAfter
  split
  next other u t hother _ =>
    refine if_neg fun heq => hu u ?_
    rw [hother, heq]
  next => rfl

/-- A template at a position that stands at `l`. -/
def Stands (position : Nat) (l : Lifecycle) (s : Session μ) : Prop :=
  ∃ t, s.templates[position]? = some t ∧ t.Encodes l

/-- A command takes a template along its lifecycle. -/
theorem Stands.step (h : Stands position l s) (command : Command μ) :
    Stands position (lifecycleAfter position s l command) (Session.step command s).state := by
  obtain ⟨t, ht, hl⟩ := h
  by_cases hu : ∃ u, command.use? = some (position, u)
  · obtain ⟨u, hu⟩ := hu
    rw [lifecycleAfter_use ht hu]
    obtain ⟨t', ht', hl', _⟩ := (undergoes_use ht hl hu).target
    exact ⟨t', ht', hl'⟩
  · have hunused : ∀ u, command.use? ≠ some (position, u) := fun u hsome => hu ⟨u, hsome⟩
    rw [lifecycleAfter_of_unused hunused]
    exact ⟨t, getElem?_templates_of_unused ht hunused, hl⟩

/-- Commands take a template along its lifecycle. -/
theorem Stands.run (h : Stands position l s) (cs : List (Command μ)) :
    Stands position (lifecycle position s l cs) (Session.run s cs).2 := by
  induction cs generalizing s l with
  | nil => exact h
  | cons c more ih => exact ih (h.step c)

/-- A new template is not enrolled. -/
theorem stands_make {bioType limit : UInt8} {matcher : μ} {counter : ArrayRef}
    (hmake : (Session.step (.makeTemplate bioType limit matcher) s).result =
      .ok (.template position counter)) :
    Stands position .unenrolled (Session.step (.makeTemplate bioType limit matcher) s).state := by
  obtain ⟨m, _, rfl, hexec⟩ := exec_make_of_ok hmake
  have htemplates : (Session.step (.makeTemplate bioType limit matcher) s).state.templates =
      s.templates ++ [Template.blank bioType counter matcher] := congrArg (·.2.templates) hexec
  refine ⟨Template.blank bioType counter matcher, ?_, Template.encodes_blank ..⟩
  rw [htemplates]
  exact List.getElem?_concat_length

/-! ## Enrolment -/

theorem lifecycleAfter_enrolling {given : List UInt8} (ht : s.templates[position]? = some t)
    (hcommand : command.boundsEnrolment position = false) :
    lifecycleAfter position s (.enrolling given) command =
      .enrolling (given ++ command.added position) := by
  unfold Command.boundsEnrolment at hcommand
  by_cases hu : ∃ u, command.use? = some (position, u)
  · obtain ⟨u, hu⟩ := hu
    rw [hu] at hcommand
    have hbounds : u.boundsEnrolment = false := by
      dsimp only at hcommand
      rwa [beq_self_eq_true, Bool.true_and] at hcommand
    have hadded : command.added position = u.added := by
      unfold Command.added
      rw [hu]
      exact if_pos rfl
    rw [lifecycleAfter_use ht hu, hadded, Lifecycle.target_next_enrolling hbounds]
  · have hadded : command.added position = [] := by
      unfold Command.added
      split
      next other u hother =>
        refine if_neg fun heq => hu ⟨u, ?_⟩
        rw [hother, heq]
      next => rfl
    rw [lifecycleAfter_of_unused fun u hsome => hu ⟨u, hsome⟩, hadded, List.append_nil]

/-- Commands that neither begin nor end an enrolment add to it what they are given. -/
theorem lifecycle_enrolling {given : List UInt8} (h : Stands position (.enrolling given) s)
    {cs : List (Command μ)} (hcs : ∀ c ∈ cs, c.boundsEnrolment position = false) :
    lifecycle position s (.enrolling given) cs =
      .enrolling (given ++ cs.flatMap (Command.added position)) := by
  induction cs generalizing s given with
  | nil => exact congrArg _ (List.append_nil given).symm
  | cons c more ih =>
    obtain ⟨hfirst, hmore⟩ := List.forall_mem_cons.mp hcs
    have hstands := h.step c
    obtain ⟨t, ht, _⟩ := h
    rw [lifecycleAfter_enrolling ht hfirst] at hstands
    rw [lifecycle, lifecycleAfter_enrolling ht hfirst, ih hstands hmore, List.flatMap_cons,
      List.append_assoc]

/-! ## The law -/

theorem result_templatePublicData (ht : s.templates[position]? = some t) (h : t.Encodes l)
    (offset size : Nat) :
    (step (.templatePublicData position offset size) s).result =
      (l.published (Matcher.publicData t.matcher) offset size).map .bytes := by
  show ((perform (.templatePublicData position offset size)).exec s).1 = _
  rw [perform, Act.exec_map, exec_onBench, ht, ← h.publicData]
  rfl

/-- A template goes through its lifecycle. Whatever has been done since it was made, its fields say
of one state of the automaton that it stands there, and of no other, and it is the state to which
the uses made of it lead. Each use of it is a transition, and no other command moves it. A use for
which it does not stand right is refused, and changes nothing. The public data are those of an
enrolled reference. An enrolment of no data ends without a reference. What is being enrolled is the
data with which the enrolment was begun and all that was added since. -/
theorem lifecycle_law {bioType limit : UInt8} {matcher : μ} {counter : ArrayRef}
    (hmake : (step (.makeTemplate bioType limit matcher) s₀).result =
      .ok (.template position counter))
    {made : Session μ} (hmade : made = (step (.makeTemplate bioType limit matcher) s₀).state)
    {cs : List (Command μ)} (hs : s = (run made cs).2)
    (hl : l = lifecycle position made .unenrolled cs) :
    ∃ t, s.templates[position]? = some t ∧ t.Encodes l ∧ (∀ other, t.Encodes other → other = l) ∧
      (∀ {command u}, command.use? = some (position, u) →
        Undergoes position s t l u command (l.next (Bench.surroundings ⟨s.card, t⟩) u)) ∧
      (∀ {command : Command μ}, (∀ u, command.use? ≠ some (position, u)) →
        (step command s).state.templates[position]? = some t) ∧
      (∀ offset size, (step (.templatePublicData position offset size) s).result =
        (l.published (Matcher.publicData t.matcher) offset size).map .bytes) ∧
      (l = .enrolling [] → ∀ w, ∃ e, l.next w .finish = ⟨.error e, none, .unenrolled⟩ ∧
        e.category = .reasoned (.bio .invalidData)) ∧
      ∀ {before data during}, cs = before ++ .templateInit position data :: during →
        (∀ c ∈ during, c.boundsEnrolment position = false) →
        l = .enrolling (data ++ during.flatMap (Command.added position)) := by
  subst hmade hs hl
  have hstart := stands_make hmake
  obtain ⟨t, ht, hencodes⟩ := hstart.run cs
  refine ⟨t, ht, hencodes, fun other hother => hother.unique hencodes, undergoes_use ht hencodes,
    getElem?_templates_of_unused ht, result_templatePublicData ht hencodes, ?_, ?_⟩
  · intro hempty w
    rw [hempty]
    exact ⟨.emptyReference, rfl, rfl⟩
  rintro before data during rfl hduring
  have hbefore := hstart.run before
  have hbegun := hbefore.step (.templateInit position data)
  obtain ⟨t', ht', _⟩ := hbefore
  rw [lifecycleAfter_use ht' rfl] at hbegun
  rw [lifecycle_append, lifecycle, lifecycleAfter_use ht' rfl]
  exact lifecycle_enrolling hbegun hduring

/-- A template whose matcher always asks for more data. -/
def insatiable : Session ConstantScore := (step (.makeTemplate 3 3 ⟨-1⟩) fresh).state

/-- An enrolment in two pieces, with a reset of the card between them, and a match. -/
def enrolAndMatch : List (Command ConstantScore) :=
  [.templateInit 0 [1], .reset, .templateUpdate 0 [2], .templateFinish 0, .templateInitMatch 0 [1]]

/-- After it the reference is what both pieces say, a session is open, and there is no enrolment to
add to. -/
theorem lifecycle_law_openSession :
    ∃ t, (run insatiable enrolAndMatch).2.templates[0]? = some t ∧
      t.Encodes (.enrolled [1, 2] (List.cons_ne_nil 1 [2]) .session) ∧
      Refused (run insatiable enrolAndMatch).2 (.update [3]) (.templateUpdate 0 [3])
        .updateBeforeInit := by
  have hmake : (step (.makeTemplate 3 3 ⟨-1⟩) fresh).result = .ok (.template 0 ⟨1⟩) := by rfl
  have hl : .enrolled [1, 2] (List.cons_ne_nil 1 [2]) .session =
      lifecycle 0 insatiable .unenrolled enrolAndMatch := by decide +kernel
  obtain ⟨t, ht, hencodes, _, huse, _⟩ := lifecycle_law hmake rfl rfl hl
  exact ⟨t, ht, hencodes, (huse rfl).refused (.update rfl)⟩

end Session

end SmartCard
