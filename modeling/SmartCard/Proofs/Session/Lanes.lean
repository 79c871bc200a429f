-- SUMMARY: On which lanes commands write, and that only a flip of bits asks for one.
import SmartCard.Proofs.Session.Atomicity
import SmartCard.Proofs.Session.Counters
import SmartCard.Proofs.Session.Rejections

/-!
# Lanes of commands

Each command takes its writes to a lane of its own (`Command.MayAsk`). Two lanes keep no undo
entries: the direct one, on which commands check first that the array may be written in parts, and
the unconditional one, which is for try counters. Hence a persistent integrity-sensitive array is
never written without an undo entry (`Command.MayAsk.logs`).
-/

namespace SmartCard

variable {μ : Type}

/-- A copy or a fill without logging has found that its destination may be written in parts. -/
theorem Range.checkProtection_eq_ok_iff {p : Protection} {x : Operand} :
    checkProtection p x = .ok () ↔ p = .nonAtomic → x.descriptor.requiresAtomicWrites = false := by
  cases p with
  | atomic => exact ⟨fun _ => nofun, fun _ => rfl⟩
  | nonAtomic =>
    unfold checkProtection
    rcases x.descriptor.requiresAtomicWrites with _ | _ <;> simp

namespace Range

variable {s : Store} {d : Descriptor}

/-- A copy that would do as an atomic one is refused without logging, if its destination needs it.
-/
theorem Copy.plan_nonAtomic {source destination : ArrayRef}
    {sourceOffset sourceLength destinationOffset : Int16} {plan : Copy}
    (hplan : Copy.plan s .atomic source sourceOffset sourceLength destination destinationOffset =
      .ok plan)
    (hd : s.descriptor .array destination = .ok d) (hatomic : d.requiresAtomicWrites = true) :
    Copy.plan s .nonAtomic source sourceOffset sourceLength destination destinationOffset =
      .error (.nonAtomicWrite destination) := by
  unfold Copy.plan at hplan ⊢
  obtain ⟨⟨x, y⟩, hxy, hplan⟩ := bind_eq_ok_iff.mp hplan
  obtain ⟨start, hstart, hplan⟩ := bind_eq_ok_iff.mp hplan
  obtain ⟨count, hcount, hplan⟩ := bind_eq_ok_iff.mp hplan
  obtain ⟨target, htarget, hplan⟩ := bind_eq_ok_iff.mp hplan
  obtain ⟨_, hsource, hplan⟩ := bind_eq_ok_iff.mp hplan
  obtain ⟨elements, helements, hplan⟩ := bind_eq_ok_iff.mp hplan
  obtain ⟨_, hdestination, _⟩ := bind_eq_ok_iff.mp hplan
  obtain ⟨d', hd', _, rfl⟩ := operand_eq_ok_iff.mp (operands_eq_ok hxy).2
  rw [hd, Except.ok.injEq] at hd'
  subst hd'
  simp only [hxy, hstart, hcount, htarget, hsource, helements, hdestination, checkProtection,
    hatomic, if_true, bind, Except.bind]

/-- So is a fill. -/
theorem Fill.plan_nonAtomic {array valueArray : ArrayRef} {offset length valueOffset : Int16}
    {plan : Fill}
    (hplan : Fill.plan s .atomic array offset length valueArray valueOffset = .ok plan)
    (hd : s.descriptor .array array = .ok d) (hatomic : d.requiresAtomicWrites = true) :
    Fill.plan s .nonAtomic array offset length valueArray valueOffset =
      .error (.nonAtomicWrite array) := by
  unfold Fill.plan at hplan ⊢
  obtain ⟨⟨x, y⟩, hxy, hplan⟩ := bind_eq_ok_iff.mp hplan
  obtain ⟨_, hkinds, hplan⟩ := bind_eq_ok_iff.mp hplan
  obtain ⟨start, hstart, hplan⟩ := bind_eq_ok_iff.mp hplan
  obtain ⟨count, hcount, hplan⟩ := bind_eq_ok_iff.mp hplan
  obtain ⟨value, hvalue, hplan⟩ := bind_eq_ok_iff.mp hplan
  obtain ⟨_, hfill, hplan⟩ := bind_eq_ok_iff.mp hplan
  obtain ⟨_, hrange, _⟩ := bind_eq_ok_iff.mp hplan
  obtain ⟨d', hd', _, rfl⟩ := operand_eq_ok_iff.mp (operands_eq_ok hxy).1
  rw [hd, Except.ok.injEq] at hd'
  subst hd'
  simp only [hxy, hkinds, hstart, hcount, hvalue, hfill, hrange, checkProtection, hatomic, if_true,
    bind, Except.bind]

end Range

namespace Command

/-- Whether a command flips bits of an array. -/
def FlipsBits (array : ArrayRef) : Command μ → Prop
  | .injectBitFlip flipped _ _ => flipped = array
  | _ => False

/-- Single operations that a command may ask for. -/
inductive MayAsk (s : Session μ) (command : Command μ) : Operation → Prop where
  | flip {array : ArrayRef} {byte : Nat} {mask : UInt8} :
      command.FlipsBits array → MayAsk s command (.flip array byte mask)
  | other {op : Operation} :
      (∀ w, op ≠ .write w) → (∀ array byte mask, op ≠ .flip array byte mask) →
      MayAsk s command op
  | logging {w : Write} :
      w.lane = .atomic ∨ w.lane = .participating → MayAsk s command (.write w)
  | direct {w : Write} {d : Descriptor} :
      w.lane = .direct → s.card.memory.store.descriptor? w.array = some d →
      d.requiresAtomicWrites = false → MayAsk s command (.write w)
  | counter {w : Write} {position : Nat} {t : Template μ} :
      command.position? = some position → s.templates[position]? = some t →
      w.array = t.counter → MayAsk s command (.write w)
  | enrolment {w : Write} :
      s.card.memory.store.freeRef = .ok w.array → MayAsk s command (.write w)

/-- Whether the template that a command is for, if any, has its counter on the card. -/
def Hosted (s : Session μ) (command : Command μ) : Prop :=
  ∀ {position t}, command.position? = some position → s.templates[position]? = some t → s.Hosts t

/-- Whether each of several operations is one that a command may ask for. -/
def EachMayAsk (s : Session μ) (command : Command μ) (ops : List Operation) : Prop :=
  ∀ op ∈ ops, MayAsk s command op

section Requests

open AsksFor

variable {c : Config} {s : Session μ} {command : Command μ} {op : Operation}

theorem eachMayAsk_nil : EachMayAsk s command [] := fun _ hmem => nomatch hmem

theorem eachMayAsk_singleton (h : MayAsk s command op) : EachMayAsk s command [op] := by
  intro op' hmem
  rw [List.mem_singleton.mp hmem]
  exact h

/-- A range operation writes on the lane of its protection, to an array that may be written so. -/
theorem mayAsk_range (h : s.card.memory.store.Sound c) {p : Range.Protection} {x : Range.Operand}
    {array : ArrayRef} (hx : Range.operand s.card.memory.store array = .ok x)
    (hp : Range.checkProtection p x = .ok ()) (offset : Nat) (bytes : List UInt8) :
    MayAsk s command (.write ⟨laneOf p, array, offset, bytes⟩) := by
  cases p with
  | atomic => exact .logging (.inl rfl)
  | nonAtomic =>
    obtain ⟨d, hd, _, rfl⟩ := Range.operand_eq_ok_iff.mp hx
    exact .direct rfl (h.descriptor_iff.mp hd) (Range.checkProtection_eq_ok_iff.mp hp rfl)

/-- Each command asks for operations on its own lane. -/
theorem mayAsk_request [Matcher μ] (h : s.card.memory.store.Sound c) (command : Command μ) :
    AsksFor (EachMayAsk s command) (command.request s) := by
  have hnil : EachMayAsk s command [] := eachMayAsk_nil
  have hother : ∀ op : Operation, (∀ w, op ≠ .write w) →
      (∀ array byte mask, op ≠ .flip array byte mask) →
      AsksFor (EachMayAsk s command) (.ok [op]) :=
    fun op hwrite hflip => made (eachMayAsk_singleton (.other hwrite hflip))
  have hatomic : ∀ array offset bytes,
      EachMayAsk s command [.write ⟨.atomic, array, offset, bytes⟩] :=
    fun _ _ _ => eachMayAsk_singleton (.logging (.inl rfl))
  have hparticipating : ∀ array offset bytes,
      EachMayAsk s command [.write ⟨.participating, array, offset, bytes⟩] :=
    fun _ _ _ => eachMayAsk_singleton (.logging (.inr rfl))
  have hquery := query hnil ((Session.perform command).exec s).1
  cases command
  case begin => exact hother _ nofun nofun
  case commit => exact hother _ nofun nofun
  case abort => exact hother _ nofun nofun
  case reset => exact hother _ nofun nofun
  case deselect => exact hother _ nofun nofun
  case injectPowerLoss => exact hother _ nofun nofun
  case injectBitFlip => exact made (eachMayAsk_singleton (.flip rfl))
  case makePersistent => exact checked fun _ _ => hother _ nofun nofun
  case makeTransient kind length event =>
    unfold request
    dsimp only
    split
    · exact refused _
    · exact either (checked fun _ _ => hother _ nofun nofun) (refused _)
  case makeSensitive => exact checked fun _ _ => hother _ nofun nofun
  case setElement => exact checked fun _ _ => made (hparticipating _ _ _)
  case loadElements =>
    exact either (refused _) (checked fun _ _ => writeUnless hnil (hparticipating _ _ _))
  case setShort => exact checked fun _ _ => made (hparticipating _ _ _)
  case setInt => exact checked fun _ _ => made (hparticipating _ _ _)
  case clearArray => exact checked fun _ _ => writeUnless hnil (hatomic _ _ _)
  case copy =>
    refine checked fun plan hplan => checked fun _ _ => writeUnless hnil (eachMayAsk_singleton ?_)
    obtain ⟨_, _, _, _, _, _, hy, _, _, _, _, _, _, hprotection, _⟩ := Range.Copy.plan_eq_ok hplan
    exact mayAsk_range h hy hprotection _ _
  case fill =>
    refine checked fun plan hplan => checked fun _ _ => writeUnless hnil (eachMayAsk_singleton ?_)
    obtain ⟨_, _, hx, _, _, _, _, _, _, _, hprotection, _⟩ := Range.Fill.plan_eq_ok hplan
    exact mayAsk_range h hx hprotection _ _
  case makeTemplate =>
    refine checked fun _ _ => checked fun _ hfree => made fun op hmem => ?_
    rcases List.mem_cons.mp hmem with rfl | hwrite
    · exact .other nofun nofun
    · rw [List.mem_singleton.mp hwrite]
      exact .enrolment hfree
  case templateInitMatch =>
    refine .onTemplate fun t ht => checked fun _ _ => checked fun _ _ => either (made hnil) ?_
    exact .settling hnil (fun w hw => eachMayAsk_singleton (.counter rfl ht hw)) _ _
  case templateMatch =>
    refine .onTemplate fun t ht => either ?_ (refused _)
    exact .settling hnil (fun w hw => eachMayAsk_singleton (.counter rfl ht hw)) _ _
  case templateResetTryLimit =>
    exact .onTemplate fun t ht =>
      checked fun _ _ => made (eachMayAsk_singleton (.counter rfl ht rfl))
  all_goals exact hquery

end Requests

section MayAsk

variable {c : Config} {s : Session μ} {command : Command μ}

theorem MayAsk.flipsBits {array : ArrayRef} {byte : Nat} {mask : UInt8}
    (h : MayAsk s command (.flip array byte mask)) : command.FlipsBits array := by
  cases h with
  | flip hflips => exact hflips
  | other _ hflip => exact absurd rfl (hflip array byte mask)

/-- A write to an array that changes by whole writes only keeps an undo entry. -/
theorem MayAsk.logs {w : Write} (hmay : MayAsk s command (.write w))
    (h : s.card.memory.store.Sound c) (hhosted : command.Hosted s) {d : Descriptor}
    (hd : s.card.memory.store.descriptor? w.array = some d)
    (hatomic : d.requiresAtomicWrites = true) : w.logs s.card.memory = .ok true := by
  obtain ⟨hsensitive, hpersistent⟩ := Bool.and_eq_true_iff.mp hatomic
  have hp : s.card.memory.store.IsPersistent w.array := ⟨d, hd, hpersistent⟩
  obtain ⟨lane, array, offset, bytes⟩ := w
  cases hmay with
  | other hwrite => exact absurd rfl (hwrite _)
  | logging hlane =>
    rcases hlane with hlane | hlane
    · cases hlane
      exact logs_atomic h hp offset bytes
    · cases hlane
      exact logs_participating h hp ⟨d, hd, hsensitive⟩ offset bytes
  | direct _ hd' hparts =>
    rw [hd, Option.some.injEq] at hd'
    rw [hd', hparts] at hatomic
    cases hatomic
  | counter hposition ht hcounter =>
    have hhosts : s.card.memory.store.descriptor? array = some TryCounter.descriptor := by
      rw [show array = _ from hcounter]
      exact hhosted hposition ht
    rw [hd, Option.some.injEq] at hhosts
    rw [hhosts] at hatomic
    cases hatomic
  | enrolment hfree =>
    rw [Store.freeRef_eq_ok hfree] at hd
    cases hd

end MayAsk

/-! ## Writing without logging -/

/-- Copies into an array and fills of it that are not logged. -/
inductive IsUnloggedOn (array : ArrayRef) : Command μ → Prop where
  | copy {source : ArrayRef} {sourceOffset sourceLength destinationOffset : Int16} :
      IsUnloggedOn array
        (.copy .nonAtomic source sourceOffset sourceLength array destinationOffset)
  | fill {valueArray : ArrayRef} {offset length valueOffset : Int16} :
      IsUnloggedOn array (.fill .nonAtomic array offset length valueArray valueOffset)

theorem IsUnloggedOn.isRestore {command : Command μ} {array : ArrayRef}
    (h : command.IsUnloggedOn array) : command.isRestore = false := by
  cases h <;> rfl

/-- The same command as one atomic unit. -/
def atomicForm : Command μ → Command μ
  | .copy _ source sourceOffset sourceLength destination destinationOffset =>
    .copy .atomic source sourceOffset sourceLength destination destinationOffset
  | .fill _ array offset length valueArray valueOffset =>
    .fill .atomic array offset length valueArray valueOffset
  | command => command

section Unlogged

variable {c : Config} {s : Session μ} {command : Command μ} {array : ArrayRef} {d : Descriptor}

/-- An array that is to be written whole is no destination for what is not logged. -/
theorem request_of_unlogged [Matcher μ] (h : s.card.memory.store.Sound c)
    (hd : s.card.memory.store.descriptor? array = some d)
    (hatomic : d.requiresAtomicWrites = true) (hunlogged : command.IsUnloggedOn array) :
    (∃ e, command.request s = .error e) ∧
      ((∃ ops, command.atomicForm.request s = .ok ops) →
        command.request s = .error (.nonAtomicWrite array)) := by
  have hlookup : s.card.memory.store.descriptor .array array = .ok d := h.descriptor_iff.mpr hd
  have hrefuses : ∀ {x : Range.Operand}, Range.operand s.card.memory.store array = .ok x →
      Range.checkProtection .nonAtomic x ≠ .ok () := by
    intro x hx hprotection
    obtain ⟨d', hd', _, rfl⟩ := Range.operand_eq_ok_iff.mp hx
    rw [hlookup, Except.ok.injEq] at hd'
    subst hd'
    rw [Range.checkProtection_eq_ok_iff.mp hprotection rfl] at hatomic
    cases hatomic
  constructor
  · rcases hr : command.request s with e | ops
    · exact ⟨e, rfl⟩
    · cases hunlogged with
      | copy =>
        obtain ⟨plan, hplan, _⟩ := bind_eq_ok_iff.mp hr
        obtain ⟨_, _, _, _, _, _, hy, _, _, _, _, _, _, hprotection, _⟩ :=
          Range.Copy.plan_eq_ok hplan
        exact absurd hprotection (hrefuses hy)
      | fill =>
        obtain ⟨plan, hplan, _⟩ := bind_eq_ok_iff.mp hr
        obtain ⟨_, _, hx, _, _, _, _, _, _, _, hprotection, _⟩ := Range.Fill.plan_eq_ok hplan
        exact absurd hprotection (hrefuses hx)
  · rintro ⟨ops, hr⟩
    cases hunlogged with
    | copy =>
      obtain ⟨plan, hplan, _⟩ := bind_eq_ok_iff.mp hr
      exact congrArg (· >>= _) (Range.Copy.plan_nonAtomic hplan hlookup hatomic)
    | fill =>
      obtain ⟨plan, hplan, _⟩ := bind_eq_ok_iff.mp hr
      exact congrArg (· >>= _) (Range.Fill.plan_nonAtomic hplan hlookup hatomic)

end Unlogged

end Command

end SmartCard
