-- SUMMARY: What each command of a session does to the try counter of one template.
import SmartCard.Proofs.Session.Reachable
import SmartCard.Proofs.Template.Matching

/-!
# Try counters in a session

Commands for a template are single turns of its counter. All others leave the template alone, and
its counter too unless they name that array as their destination.
-/

namespace SmartCard

variable {μ : Type}

/-! ## What commands name -/

namespace Command

/-- The position of the template that a command is for. -/
def position? : Command μ → Option Nat
  | .templateInit position _
  | .templateUpdate position _
  | .templateFinish position
  | .templateReset position
  | .templateInitMatch position _
  | .templateMatch position _
  | .templateResetTryLimit position _
  | .templateTries position
  | .templatePublicData position _ _ => some position
  | _ => none

/-- The array that a command may write to or flip bits of. A match writes to the counter of its
template. -/
def destination? (s : Session μ) : Command μ → Option ArrayRef
  | .setElement array _ _
  | .loadElements array _
  | .copy _ _ _ _ array _
  | .fill _ array _ _ _ _
  | .setShort array _ _
  | .setInt array _ _
  | .clearArray array
  | .injectBitFlip array _ _ => some array
  | .templateInitMatch position _
  | .templateMatch position _
  | .templateResetTryLimit position _ => s.templates[position]?.map Template.counter
  | _ => none

/-- Whether a command that ended so has refilled the counter of the template at a position. -/
def refills (position : Nat) : Command μ → Except Fault Reply → Bool
  | .templateInitMatch other _, .ok (.short score)
  | .templateMatch other _, .ok (.short score) => other == position && minimumSuccessScore ≤ score
  | .templateResetTryLimit other _, .ok _ => other == position
  | _, _ => false

theorem position?_of_refills {position : Nat} {c : Command μ} {r : Except Fault Reply}
    (h : c.refills position r = true) : c.position? = some position := by
  unfold refills at h
  split at h
  · exact congrArg some (eq_of_beq (Bool.and_eq_true_iff.mp h).1)
  · exact congrArg some (eq_of_beq (Bool.and_eq_true_iff.mp h).1)
  · exact congrArg some (eq_of_beq h)
  · cases h

/-- Operations none of which names the array. -/
def SparesArray (array : ArrayRef) (ops : List Operation) : Prop := ∀ op ∈ ops, ¬op.Names array

open AsksFor in
/-- A command asks for nothing that names an array other than its destination. -/
theorem spares_request [Matcher μ] {s : Session μ} {array : ArrayRef}
    (hp : s.card.memory.store.IsPersistent array) {c : Command μ}
    (hc : c.destination? s ≠ some array) :
    AsksFor (SparesArray array) (c.request s) := by
  have hnil : SparesArray array [] := fun op hop => nomatch hop
  have hone : ∀ {op : Operation}, ¬op.Names array → SparesArray array [op] := by
    intro op hop op' hmem
    rw [List.mem_singleton.mp hmem]
    exact hop
  have hwrite : ∀ w : Write, c.destination? s = some w.array → SparesArray array [.write w] :=
    fun w hw => hone fun heq => hc (hw.trans (congrArg some heq))
  have hquery := query hnil ((Session.perform c).exec s).1
  cases c
  case begin => exact made (hone id)
  case commit => exact made (hone id)
  case abort => exact made (hone id)
  case reset => exact made (hone id)
  case deselect => exact made (hone id)
  case injectPowerLoss => exact made (hone id)
  case makePersistent => exact checked fun _ _ => made (hone id)
  case makeTransient kind length event =>
    unfold request
    dsimp only
    split
    · exact refused _
    · exact either (checked fun _ _ => made (hone id)) (refused _)
  case makeSensitive => exact checked fun _ _ => made (hone id)
  case injectBitFlip => exact made (hone fun heq => hc (congrArg some heq))
  case setElement => exact checked fun _ _ => made (hwrite _ rfl)
  case loadElements =>
    exact either (refused _) (checked fun _ _ => writeUnless hnil (hwrite _ rfl))
  case copy =>
    exact checked fun _ _ => checked fun _ _ => writeUnless hnil (hwrite _ rfl)
  case fill =>
    exact checked fun _ _ => checked fun _ _ => writeUnless hnil (hwrite _ rfl)
  case setShort => exact checked fun _ _ => made (hwrite _ rfl)
  case setInt => exact checked fun _ _ => made (hwrite _ rfl)
  case clearArray => exact checked fun _ _ => writeUnless hnil (hwrite _ rfl)
  case makeTemplate =>
    refine checked fun _ _ => checked fun fresh hfree => made fun op hop => ?_
    rcases List.mem_cons.mp hop with rfl | hwrite
    · exact id
    · rw [List.mem_singleton.mp hwrite]
      rintro rfl
      obtain ⟨d, hd, _⟩ := hp
      rw [Store.freeRef_eq_ok hfree] at hd
      cases hd
  case templateInitMatch position candidate =>
    refine .onTemplate fun t ht => checked fun _ _ => checked fun _ _ => either (made hnil) ?_
    exact .settling hnil (fun w hw => hwrite w (by rw [destination?, ht, hw]; rfl)) _ _
  case templateMatch position candidate =>
    refine .onTemplate fun t ht => either ?_ (refused _)
    exact .settling hnil (fun w hw => hwrite w (by rw [destination?, ht, hw]; rfl)) _ _
  case templateResetTryLimit position limit =>
    exact .onTemplate fun t ht => checked fun _ _ => made (hwrite _ (by rw [destination?, ht]; rfl))
  all_goals exact hquery

end Command

namespace Session

/-! ## Templates of a session -/

section Templates

variable {α : Type} {position other : Nat} {s : Session μ}

theorem templates_onCard (f : α → Reply) (x : Act Card α) (s : Session μ) :
    ((f <$> onCard x).exec s).2.templates = s.templates := by
  rw [Act.exec_map]
  rfl

theorem templates_askCard (f : α → Reply) (g : Card → Except Fault α) (s : Session μ) :
    ((f <$> askCard g).exec s).2.templates = s.templates := by
  rw [Act.exec_map]
  rfl

theorem getElem?_templates_onBench (hne : some other ≠ some position) (f : α → Reply)
    (x : Act (Bench μ) α) (s : Session μ) :
    ((f <$> onBench other x).exec s).2.templates[position]? = s.templates[position]? := by
  rw [Act.exec_map, exec_onBench]
  rcases s.templates[other]? with _ | t
  · rfl
  · exact List.getElem?_set_ne fun heq => hne (congrArg some heq)

/-- What making a template does to the session. -/
theorem exec_make (bioType limit : UInt8) (matcher : μ) (s : Session μ) :
    (makeTemplate bioType limit matcher).exec s =
      match (TryCounter.make limit).exec s.card.memory with
      | (.ok counter, m) => (.ok (.template s.templates.length counter),
        { s with
          card := { s.card with memory := m }
          templates := s.templates ++ [Template.blank bioType counter matcher] })
      | (.error e, m) => (.error e, { s with card := { s.card with memory := m } }) := by
  unfold makeTemplate
  rw [Act.exec_bind, onCard, Act.exec_zoom, exec_makeTemplate]
  rcases (TryCounter.make limit).exec s.card.memory with ⟨_ | counter, m⟩
  · rfl
  · rfl

theorem exec_make_of_ok {bioType limit : UInt8} {matcher : μ} {counter : ArrayRef}
    (h : ((makeTemplate bioType limit matcher).exec s).1 = .ok (.template position counter)) :
    ∃ m, (TryCounter.make limit).exec s.card.memory = (.ok counter, m) ∧
      position = s.templates.length ∧
      (makeTemplate bioType limit matcher).exec s = (.ok (.template position counter),
        { s with
          card := { s.card with memory := m }
          templates := s.templates ++ [Template.blank bioType counter matcher] }) := by
  rw [exec_make] at h ⊢
  rcases hm : (TryCounter.make limit).exec s.card.memory with ⟨_ | counter', m⟩
  · rw [hm] at h
    cases h
  · rw [hm] at h
    cases h
    exact ⟨m, rfl, rfl, rfl⟩

theorem getElem?_templates_make (hposition : position < s.templates.length) (bioType limit : UInt8)
    (matcher : μ) :
    ((makeTemplate bioType limit matcher).exec s).2.templates[position]? =
      s.templates[position]? := by
  rw [exec_make]
  rcases (TryCounter.make limit).exec s.card.memory with ⟨_ | counter, m⟩
  · rfl
  · exact List.getElem?_append_left hposition

variable [Matcher μ]

/-- A command leaves the other templates alone. -/
theorem getElem?_templates_step (hposition : position < s.templates.length) {c : Command μ}
    (hc : c.position? ≠ some position) :
    (step c s).state.templates[position]? = s.templates[position]? := by
  show ((perform c).exec s).2.templates[position]? = s.templates[position]?
  cases c
  case makeTemplate bioType limit matcher =>
    exact getElem?_templates_make hposition bioType limit matcher
  case templateInit => exact getElem?_templates_onBench hc _ _ s
  case templateUpdate => exact getElem?_templates_onBench hc _ _ s
  case templateFinish => exact getElem?_templates_onBench hc _ _ s
  case templateReset => exact getElem?_templates_onBench hc _ _ s
  case templateInitMatch => exact getElem?_templates_onBench hc _ _ s
  case templateMatch => exact getElem?_templates_onBench hc _ _ s
  case templateResetTryLimit => exact getElem?_templates_onBench hc _ _ s
  case templateTries => exact getElem?_templates_onBench hc _ _ s
  case templatePublicData => exact getElem?_templates_onBench hc _ _ s
  -- The commands that are left are for the card or for the telemetry.
  all_goals rw [perform]
  all_goals first
    | rw [templates_onCard]
    | rw [templates_askCard]
    | rfl

end Templates

/-! ## Turns of a counter -/

variable {position : Nat} {array : ArrayRef} {limit left : UInt8} {s : Session (Recorder μ)}

/-- How often the matcher of the template at a position has failed a candidate. -/
def failures (position : Nat) (s : Session (Recorder μ)) : Nat :=
  match s.templates[position]? with
  | some t => t.matcher.failures
  | none => 0

/-- The template at a position, with its counter in `array`. -/
def Guarded (position : Nat) (array : ArrayRef) (limit left : UInt8) (s : Session μ) : Prop :=
  ∃ t, s.templates[position]? = some t ∧ Bench.Guarded array limit left ⟨s.card, t⟩

variable [Matcher μ]

/-- A command is one turn of the counter of the template at a position. -/
def TakesTurn (position : Nat) (array : ArrayRef) (left : UInt8) (s : Session (Recorder μ))
    (c : Command (Recorder μ)) : Prop :=
  ∃ n limit' left', failures position (step c s).state = failures position s + n ∧
    Guarded position array limit' left' (step c s).state ∧
    Turn left limit' left' n (c.refills position (step c s).result) (lostPower (step c s).result)

/-- A new template has all of its tries. -/
theorem Sound.guarded_make (h : s.Sound) {bioType : UInt8} {matcher : Recorder μ}
    (hmake : (Session.step (.makeTemplate bioType limit matcher) s).result =
      .ok (.template position array)) :
    Guarded position array limit limit
      (Session.step (.makeTemplate bioType limit matcher) s).state := by
  obtain ⟨m, hm, rfl, hexec⟩ := exec_make_of_ok hmake
  have hcard : (Session.step (.makeTemplate bioType limit matcher) s).state.card =
      { s.card with memory := m } := congrArg (·.2.card) hexec
  have htemplates : (Session.step (.makeTemplate bioType limit matcher) s).state.templates =
      s.templates ++ [Template.blank bioType array matcher] := congrArg (·.2.templates) hexec
  refine ⟨Template.blank bioType array matcher, ?_, rfl, nofun, ?_⟩
  · rw [htemplates]
    exact List.getElem?_concat_length
  · rw [hcard]
    exact TryCounter.holds_make h.memory h.settled hm

omit [Matcher μ] in
theorem lostPower_map {α β : Type} (f : α → β) (r : Except Fault α) :
    lostPower (r.map f) = lostPower r := by
  rcases r with _ | _ <;> rfl

/-- A command for the template is a turn on its bench. -/
theorem Guarded.onBench {α : Type} {x : Act (Bench (Recorder μ)) α}
    {refills : Except Fault α → Bool} {f : α → Reply} {c : Command (Recorder μ)}
    (h : Guarded position array limit left s)
    (hperform : perform c = f <$> Session.onBench position x)
    (hx : ∀ {b : Bench (Recorder μ)}, Bench.Guarded array limit left b →
      Bench.TakesTurn array left b x refills)
    (hrefills : ∀ r : Except Fault α, c.refills position (r.map f) = refills r) :
    TakesTurn position array left s c := by
  obtain ⟨t, ht, hguarded⟩ := h
  obtain ⟨n, hfailures, limit', left', hguarded', _, hturn⟩ := hx hguarded
  have hexec : (perform c).exec s = (((x.exec ⟨s.card, t⟩).1).map f,
      { s with
        card := (x.exec ⟨s.card, t⟩).2.card
        templates := s.templates.set position (x.exec ⟨s.card, t⟩).2.template }) := by
    rw [hperform, Act.exec_map, exec_onBench, ht]
  have hresult : (step c s).result = (x.exec ⟨s.card, t⟩).1.map f := congrArg Prod.fst hexec
  have hcard : (step c s).state.card = (x.exec ⟨s.card, t⟩).2.card := congrArg (·.2.card) hexec
  have ht' : (step c s).state.templates[position]? = some (x.exec ⟨s.card, t⟩).2.template := by
    have htemplates : (step c s).state.templates =
        s.templates.set position (x.exec ⟨s.card, t⟩).2.template := congrArg (·.2.templates) hexec
    rw [htemplates]
    exact List.getElem?_set_self (List.getElem?_eq_some_iff.mp ht).1
  refine ⟨n, limit', left', ?_, ⟨_, ht', ?_⟩, ?_⟩
  · unfold failures
    rw [ht', ht]
    exact hfailures
  · rw [hcard]
    exact hguarded'
  · rw [hresult, hrefills, lostPower_map]
    exact hturn

/-- A command for the template is a turn of its counter. -/
theorem Guarded.takesTurn_own (h : Guarded position array limit left s) {c : Command (Recorder μ)}
    (hc : c.position? = some position) : TakesTurn position array left s c := by
  have hdone : ∀ score : Int16,
      (position == position && minimumSuccessScore ≤ score) = isSuccessful (.ok score) := by
    intro score
    rw [beq_self_eq_true, Bool.true_and]
    rfl
  cases c
  case templateInit data =>
    obtain rfl := Option.some.inj hc
    exact h.onBench rfl (fun hg => hg.onTemplate (Template.keeps_init data _)) fun _ => rfl
  case templateUpdate data =>
    obtain rfl := Option.some.inj hc
    exact h.onBench rfl (fun hg => hg.onTemplate (Template.keeps_update data _)) fun _ => rfl
  case templateFinish =>
    obtain rfl := Option.some.inj hc
    exact h.onBench rfl (fun hg => hg.onTemplate (Template.keeps_finish _)) fun _ => rfl
  case templateReset =>
    obtain rfl := Option.some.inj hc
    exact h.onBench rfl (fun hg => hg.onTemplate (Template.keeps_reset _)) fun _ => rfl
  case templateTries =>
    obtain rfl := Option.some.inj hc
    exact h.onBench rfl (fun hg => hg.query _) fun _ => rfl
  case templatePublicData =>
    obtain rfl := Option.some.inj hc
    exact h.onBench rfl (fun hg => hg.query _) fun _ => rfl
  case templateInitMatch candidate =>
    obtain rfl := Option.some.inj hc
    refine h.onBench rfl (fun hg => hg.initMatch candidate) fun r => ?_
    rcases r with e | score
    · rfl
    · exact hdone score
  case templateMatch candidate =>
    obtain rfl := Option.some.inj hc
    refine h.onBench rfl (fun hg => hg.matchData candidate) fun r => ?_
    rcases r with e | score
    · rfl
    · exact hdone score
  case templateResetTryLimit n =>
    obtain rfl := Option.some.inj hc
    refine h.onBench rfl (fun hg => hg.resetTryLimit n) fun r => ?_
    rcases r with e | _
    · rfl
    · exact beq_self_eq_true _
  all_goals cases hc

/-- A command that is neither for the template nor names the array of its counter leaves both alone.
-/
theorem Guarded.takesTurn_other (h : Guarded position array limit left s) (hsound : s.Sound)
    {c : Command (Recorder μ)} (hrestore : c.isRestore = false) (hc : c.position? ≠ some position)
    (hdestination : c.destination? s ≠ some array) : TakesTurn position array left s c := by
  obtain ⟨t, ht, hguarded⟩ := h
  have ht' := getElem?_templates_step (List.getElem?_eq_some_iff.mp ht).1 hc
  have hcard := hsound.card_step hrestore
  have hsound' := hsound.step c
  have hconfig : (step c s).state.card.config = s.card.config := by rw [hcard]
  have hspares : Memory.Spares array s.card.memory (step c s).state.card.memory := by
    rw [hcard]
    rcases hr : c.request s with e | ops
    · exact .refl hguarded.holds.unlogged
    · have hops := Command.spares_request hguarded.holds.isPersistent hdestination ops hr
      exact Operation.spares_run hsound.memory hsound.settled hguarded.holds.isPersistent hops
        hguarded.holds.unlogged
  have hholds := hguarded.holds.spared hspares (hconfig ▸ hsound'.memory) hsound'.settled
  have hrefills : c.refills position (step c s).result = false :=
    Bool.eq_false_iff.mpr fun hrefills => hc (Command.position?_of_refills hrefills)
  refine ⟨0, limit, left, ?_, ⟨t, ht'.trans ht, hguarded.counter, hguarded.session, ?_⟩, ?_⟩
  · unfold failures
    rw [ht', Nat.add_zero]
  · rw [hconfig]
    exact hholds
  · rw [hrefills]
    exact .none rfl

end Session

end SmartCard
