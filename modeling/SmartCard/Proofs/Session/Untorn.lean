-- SUMMARY: Until a tear strikes, every command runs as it does with no tear ahead.
import SmartCard.Proofs.Memory.Untorn
import SmartCard.Proofs.Session.Rejections
import SmartCard.Proofs.Session.Tearing

/-!
# Commands with and without a tear ahead

A command looks at the tear in its writes only, and these lie within their arrays. So it runs with a
tear ahead as it does without one, down to its reply, its events and what it leaves behind, or else
it reports that power was lost (`Session.Sound.untorn_perform`). Only arming the tear is different,
and replacing the card.
-/

namespace SmartCard

variable {σ τ α μ : Type} {c : Config} {m : Memory}

instance : HasTear Card := ⟨fun card => { card with memory := card.memory.untorn }⟩

instance : HasTear (Bench μ) := ⟨fun b => { b with card := disarm b.card }⟩

instance : HasTear (Session μ) := ⟨Session.untorn⟩

/-! ## Acts on a part of the state -/

theorem Act.Untorn.zoom [HasTear σ] [HasTear τ] {get : σ → τ} {set : σ → τ → σ} {x : Act τ α}
    {s : σ} (hx : x.Untorn (get s)) (hget : get (disarm s) = disarm (get s))
    (hset : ∀ t, set (disarm s) (disarm t) = disarm (set s t)) : (x.zoom get set).Untorn s := by
  rcases hx with hlost | hsame
  · exact .inl hlost
  · refine .inr ?_
    unfold Act.zoom
    rw [hget, hsame]
    exact congrArg (fun s => Outcome.mk _ s _ _) (hset _)

theorem Act.Untorn.map [HasTear σ] {x : Act σ α} {β : Type} {s : σ} (hx : x.Untorn s) (f : α → β) :
    (f <$> x).Untorn s := .bind hx fun _ _ _ => .pure _

theorem Card.untorn_onMemory {x : Act Memory α} {card : Card} (hx : x.Untorn card.memory) :
    (onMemory x).Untorn card := by
  rcases hx with hlost | hsame
  · exact .inl hlost
  · refine .inr ?_
    have hmemory : (disarm card).memory = disarm card.memory := rfl
    unfold onMemory
    rw [hmemory, hsame]
    rfl

/-! ## Acts on the memory -/

namespace Memory

theorem untorn_makePersistent (kind : Kind) (length : Int16) (m : Memory) :
    (makePersistent kind length).Untorn m :=
  .query_bind rfl fun _ _ => untorn_allocate _ m

theorem untorn_makeTransient (kind : Kind) (length : Int16) (event : UInt8) (m : Memory) :
    (makeTransient kind length event).Untorn m := by
  unfold makeTransient
  split
  · exact .fail _
  · split
    · exact .query_bind rfl fun _ _ => untorn_allocate _ m
    · exact .fail _

end Memory

namespace Integrity

theorem untorn_make (supported : Bool) (kind : Kind) (memoryType : UInt8) (length : Int16)
    (m : Memory) : (make supported kind memoryType length).Untorn m :=
  .query_bind rfl fun _ _ => .bind (Memory.untorn_allocate _ m) fun _ _ _ =>
    .bind (.note _) fun _ _ _ => .pure _

theorem untorn_check (array : ArrayRef) (m : Memory) : (check array).Untorn m := by
  refine .query_bind rfl fun _ _ => ?_
  split
  · exact .pure ()
  · exact .bind (.note _) fun _ _ _ => .fail _

end Integrity

namespace Range

theorem untorn_reported (operation : RangeOperation) {x : Act Memory (α × Nat)} (hx : x.Untorn m) :
    (reported operation x).Untorn m :=
  .bind (.onFault hx fun _ _ _ => .emit _) fun _ _ _ => .bind (.emit _) fun _ _ _ => .pure _

theorem untorn_write {p : Protection} {array : ArrayRef} {offset : Nat} {bytes : List UInt8}
    (hw : bytes.isEmpty = false →
      (Write.act ⟨Command.laneOf p, array, offset, bytes⟩).Untorn m) :
    (write p array offset bytes).Untorn m := by
  unfold write
  split
  · exact .pure ()
  next hbytes =>
    have hwrite := hw (Bool.eq_false_iff.mpr hbytes)
    cases p <;> exact hwrite

end Range

/-! ## Try counters -/

namespace TryCounter

variable {counter : ArrayRef} {offset : Nat} {bytes : List UInt8}

/-- A write within a counter. -/
theorem untorn_write (h : m.Sound c) (hd : m.store.descriptor? counter = some descriptor)
    (hfits : offset + bytes.length ≤ descriptor.byteLength) :
    (Memory.writeUnconditional counter offset bytes).Untorn m :=
  Write.InRange.untorn_act (w := ⟨.unconditional, counter, offset, bytes⟩) ⟨_, hd, hfits⟩ h

theorem untorn_refill (h : m.Sound c) (hd : m.store.descriptor? counter = some descriptor)
    (limit : UInt8) : (refill counter limit).Untorn m :=
  .query_bind rfl fun _ _ => untorn_write h hd (Nat.le_refl 2)

theorem untorn_restoreTries (h : m.Sound c) (hd : m.store.descriptor? counter = some descriptor) :
    (restoreTries counter).Untorn m :=
  .query_bind rfl fun _ _ => untorn_write h hd (Nat.le_refl 2)

theorem untorn_spend (h : m.Sound c) (hd : m.store.descriptor? counter = some descriptor) :
    (spend counter).Untorn m :=
  .query_bind rfl fun _ _ => .bind (untorn_write h hd (Nat.le_refl 2)) fun _ _ _ => .pure _

theorem untorn_make (h : m.Sound c) (limit : UInt8) : (make limit).Untorn m := by
  refine .query_bind rfl fun _ _ => ?_
  refine .bind (Memory.untorn_allocate _ m) fun array m' hexec => ?_
  refine .bind ?_ fun _ _ _ => .pure _
  rcases hmade : m.store.allocate ⟨.byte, 2, .persistent, false⟩ with e | ⟨array', s⟩
  · rw [Memory.exec_allocate_of_error hmade] at hexec
    cases hexec
  · rw [Memory.exec_allocate_of_ok hmade] at hexec
    cases hexec
    refine untorn_refill (Operation.sound_allocate h hmade) ?_ limit
    show s.descriptor? array = _
    rw [h.store.descriptor?_allocate hmade, if_pos rfl]
    rfl

end TryCounter

/-! ## Templates -/

namespace Bench

variable {b : Bench μ}

theorem untorn_onMemory {x : Act Memory α} (hx : x.Untorn b.card.memory) :
    (onMemory x).Untorn b := .zoom (Card.untorn_onMemory hx) rfl fun _ => rfl

theorem untorn_onTemplate (x : Act (Template μ) α) : (onTemplate x).Untorn b := .inr rfl

theorem untorn_update (f : Template μ → Template μ) : (update f).Untorn b := untorn_onTemplate _

/-- Whether the counter of the template is on the card. -/
def Hosted (b : Bench μ) : Prop :=
  b.card.memory.store.descriptor? b.template.counter = some TryCounter.descriptor

theorem untorn_settle (h : b.card.memory.Sound c) (hhosted : b.Hosted) (score : Int16) :
    (settle score).Untorn b := by
  refine .read_bind rfl ?_
  have hclosed : ∀ {f : Template μ → Template μ} {x : Act Memory Unit},
      x.Untorn b.card.memory → (do update f; onMemory x; pure score : Act (Bench μ) Int16).Untorn b :=
    fun hx => .bind (untorn_update _) fun _ b' hexec => by
      obtain ⟨_, rfl⟩ := Prod.mk.inj hexec
      exact .bind (untorn_onMemory hx) fun _ _ _ => .pure _
  rcases MatchOutcome.ofScore score with e | n | n | _
  · exact .bind (untorn_update _) fun _ _ _ => .fail e
  · exact hclosed (.bind (TryCounter.untorn_restoreTries h hhosted) fun _ _ _ => .note _)
  · exact hclosed (.bind (TryCounter.untorn_spend h hhosted) fun _ _ _ => .note _)
  · exact .bind (untorn_update _) fun _ _ _ => .pure _

theorem untorn_resetTryLimit (h : b.card.memory.Sound c) (hhosted : b.Hosted) (limit : UInt8) :
    (resetTryLimit limit).Untorn b :=
  .read_bind rfl <| .bind (untorn_onMemory (TryCounter.untorn_refill h hhosted limit))
    fun _ _ _ => untorn_update _

variable [Matcher μ]

theorem untorn_consult_settle (h : b.card.memory.Sound c) (hhosted : b.Hosted)
    (candidate : List UInt8) (phase : MatchPhase) :
    (do
      let score ← consult candidate phase
      settle score : Act (Bench μ) Int16).Untorn b := by
  refine .bind (.read_bind rfl (.bind (untorn_update _) fun _ _ _ => .pure _)) fun score b' hexec => ?_
  have hcard : b'.card = b.card := congrArg (fun r => r.2.card) hexec.symm
  have hcounter : b'.template.counter = b.template.counter :=
    congrArg (fun r => r.2.template.counter) hexec.symm
  refine untorn_settle (c := c) (hcard ▸ h) ?_ score
  unfold Hosted
  rw [hcard, hcounter]
  exact hhosted

theorem untorn_initMatch (h : b.card.memory.Sound c) (hhosted : b.Hosted)
    (candidate : List UInt8) : (initMatch candidate).Untorn b := by
  refine .query_bind rfl fun _ _ => .bind (untorn_update _) fun _ b' hexec => ?_
  obtain ⟨_, rfl⟩ := Prod.mk.inj hexec
  refine .read_bind rfl (.query_bind rfl fun left _ => ?_)
  split
  · exact .bind (untorn_onMemory (.note _)) fun _ _ _ => .pure _
  · exact untorn_consult_settle (b := (update Template.reset b).state) h hhosted candidate .initial

theorem untorn_matchData (h : b.card.memory.Sound c) (hhosted : b.Hosted)
    (candidate : List UInt8) : (matchData candidate).Untorn b := by
  refine .read_bind rfl ?_
  split
  · exact untorn_consult_settle h hhosted candidate .continuation
  · exact .fail _

end Bench

/-! ## Commands -/

/-- A command for the card alone. -/
theorem Command.hosted_of_card {s : Session μ} {command : Command μ}
    (h : command.position? = none) : command.Hosted s := by
  intro position t hposition
  rw [h] at hposition
  cases hposition

namespace Session

variable {s : Session μ} {command : Command μ} {position : Nat}

theorem untorn_onCard {x : Act Card α} (hx : x.Untorn s.card) : (onCard x).Untorn s :=
  .zoom hx rfl fun _ => rfl

theorem untorn_onMemory {x : Act Memory α} (hx : x.Untorn s.card.memory) :
    (onCard (Card.onMemory x)).Untorn s := untorn_onCard (Card.untorn_onMemory hx)

theorem untorn_onTelemetry (f : Telemetry → α × Telemetry) : (onTelemetry f).Untorn s := .inr rfl

theorem untorn_onBench {x : Act (Bench μ) α}
    (hx : ∀ t, s.templates[position]? = some t → x.Untorn ⟨s.card, t⟩) :
    (onBench position x).Untorn s := by
  unfold Act.Untorn onBench
  have htemplates : (disarm s).templates = s.templates := rfl
  rw [htemplates]
  rcases ht : s.templates[position]? with _ | t
  · exact .inr rfl
  · rcases hx t ht with hlost | hsame
    · exact .inl hlost
    · refine .inr ?_
      have hbench : (⟨(disarm s).card, t⟩ : Bench μ) = disarm ⟨s.card, t⟩ := rfl
      dsimp only
      rw [hbench, hsame]
      rfl

theorem untorn_makeTemplate (h : s.card.memory.Sound c) (bioType limit : UInt8) (matcher : μ) :
    (makeTemplate bioType limit matcher).Untorn s := by
  refine .bind (untorn_onCard ?_) fun t _ _ => ?_
  · exact .bind (Card.untorn_onMemory (TryCounter.untorn_make h limit)) fun _ _ _ => .pure _
  · exact .read_bind rfl (.bind (.modify rfl) fun _ _ _ => .pure _)

variable [Matcher μ]

/-- The one write that a command asks for lies within its array. -/
theorem inRange_of_request (h : s.card.memory.store.Sound c) (hhosted : command.Hosted s)
    {w : Write} (hr : command.request s = .ok [.write w]) : w.InRange s.card.memory.store := by
  cases Command.asked_request h command _ hr with
  | other hop => exact absurd rfl (hop w)
  | write _ hrange => exact hrange
  | counter hposition ht _ hfits => exact ⟨_, hhosted hposition ht, hfits⟩

theorem Sound.untorn_write (h : s.Sound) (hhosted : command.Hosted s) {w : Write}
    (hr : command.request s = .ok [.write w]) : w.act.Untorn s.card.memory :=
  (inRange_of_request h.memory.store hhosted hr).untorn_act h.memory

theorem Sound.untorn_loadElements (h : s.Sound) (array : ArrayRef) (values : List Int32) :
    (Memory.loadElements array values).Untorn s.card.memory := by
  unfold Memory.loadElements
  split
  · exact .fail _
  next hfew =>
    refine .query_bind (α := Descriptor × Nat) rfl fun slot hslot => ?_
    dsimp only
    split
    · exact .pure ()
    next hsome =>
      have hr : (Command.loadElements array values : Command μ).request s =
          .ok [.write ⟨.participating, array, 0, values.flatMap slot.1.kind.encode⟩] :=
        (if_neg hfew).trans
          (bind_eq_ok_iff.mpr ⟨slot, hslot, congrArg Except.ok (if_neg hsome)⟩)
      exact h.untorn_write (Command.hosted_of_card rfl) hr

theorem Sound.untorn_copy (h : s.Sound) (p : Range.Protection) (source : ArrayRef)
    (sourceOffset sourceLength : Int16) (destination : ArrayRef) (destinationOffset : Int16) :
    (Range.copy p source sourceOffset sourceLength destination destinationOffset).Untorn
      s.card.memory := by
  refine Range.untorn_reported _ ?_
  refine .query_bind rfl fun plan hplan => .query_bind rfl fun bytes hbytes => ?_
  refine .bind (Range.untorn_write fun hsome => ?_) fun _ _ _ =>
    .bind (.query rfl) fun _ _ _ => .pure _
  have hr : (Command.copy p source sourceOffset sourceLength destination destinationOffset :
      Command μ).request s =
        .ok [.write ⟨Command.laneOf p, destination, plan.destinationByte, bytes⟩] :=
    bind_eq_ok_iff.mpr ⟨plan, hplan, bind_eq_ok_iff.mpr
      ⟨bytes, hbytes, congrArg Except.ok (if_neg (Bool.eq_false_iff.mp hsome))⟩⟩
  exact h.untorn_write (Command.hosted_of_card rfl) hr

theorem Sound.untorn_fill (h : s.Sound) (p : Range.Protection) (array : ArrayRef)
    (offset length : Int16) (valueArray : ArrayRef) (valueOffset : Int16) :
    (Range.fill p array offset length valueArray valueOffset).Untorn s.card.memory := by
  refine Range.untorn_reported _ ?_
  refine .query_bind rfl fun plan hplan => .query_bind rfl fun element helement => ?_
  refine .bind (Range.untorn_write fun hsome => ?_) fun _ _ _ =>
    .bind (.query rfl) fun _ _ _ => .pure _
  have hr : (Command.fill p array offset length valueArray valueOffset : Command μ).request s =
      .ok [.write ⟨Command.laneOf p, array, plan.offset * plan.width,
        (List.replicate plan.count element).flatten⟩] :=
    bind_eq_ok_iff.mpr ⟨plan, hplan, bind_eq_ok_iff.mpr
      ⟨element, helement, congrArg Except.ok (if_neg (Bool.eq_false_iff.mp hsome))⟩⟩
  exact h.untorn_write (Command.hosted_of_card rfl) hr

theorem Sound.untorn_clear (h : s.Sound) (array : ArrayRef) :
    (Integrity.clear array).Untorn s.card.memory := by
  refine .query_bind rfl fun cell hcell => ?_
  dsimp only
  split
  · exact .pure ()
  next hsize =>
    have hr : (Command.clearArray array : Command μ).request s =
        .ok [.write ⟨.atomic, array, 0, List.replicate cell.descriptor.byteLength 0⟩] :=
      bind_eq_ok_iff.mpr ⟨cell, hcell, congrArg Except.ok (if_neg hsize)⟩
    exact h.untorn_write (Command.hosted_of_card rfl) hr

/-- A packed value is written within its window. -/
theorem Sound.untorn_writeWord (h : s.Sound) {array : ArrayRef} {offset : Int16} {word : UInt32}
    {width : Nat} (hhosted : command.Hosted s)
    (hr : command.request s = do
      let start ← Packing.window s.card.memory.store array offset width
      pure [.write ⟨.participating, array, start, BigEndian.split word width⟩]) :
    (Packing.writeWord array offset word width).Untorn s.card.memory := by
  refine .query_bind rfl fun start hstart => .bind ?_ fun _ _ _ => .pure _
  rw [hstart] at hr
  exact h.untorn_write hhosted hr

/-- Commands run as with no tear ahead, unless they lose power. -/
theorem Sound.untorn_perform (h : s.Sound) (hrestore : command.isRestore = false)
    (harm : ∀ bytes, command ≠ .injectPowerLoss bytes) (hhosted : command.Hosted s) :
    (perform command).Untorn s := by
  cases command
  case begin => exact .map (untorn_onMemory (Memory.untorn_begin _)) _
  case commit => exact .map (untorn_onMemory (Memory.untorn_commit _)) _
  case abort => exact .map (untorn_onMemory (Memory.untorn_abort _)) _
  case reset => exact .map (untorn_onMemory (Memory.untorn_reset _)) _
  case deselect => exact .map (untorn_onMemory (Memory.untorn_clearTransients _ _)) _
  case injectBitFlip => exact .map (untorn_onMemory (Memory.untorn_flip _ _ _ _)) _
  case makePersistent => exact .map (untorn_onMemory (Memory.untorn_makePersistent _ _ _)) _
  case makeTransient => exact .map (untorn_onMemory (Memory.untorn_makeTransient _ _ _ _)) _
  case makeSensitive kind memoryType length =>
    have hmake := Integrity.untorn_make s.card.config.integritySensitiveSupported kind memoryType
      length s.card.memory
    exact .map (untorn_onCard (Card.untorn_onMemory hmake)) _
  case setElement array index value =>
    refine .map (untorn_onMemory (.query_bind rfl fun slot hslot => ?_)) _
    have hr : (Command.setElement array index value : Command μ).request s =
        .ok [.write ⟨.participating, array, slot.2, slot.1.kind.encode value⟩] :=
      bind_eq_ok_iff.mpr ⟨slot, hslot, rfl⟩
    exact h.untorn_write hhosted hr
  case loadElements => exact .map (untorn_onMemory (h.untorn_loadElements _ _)) _
  case copy => exact .map (untorn_onMemory (h.untorn_copy _ _ _ _ _ _)) _
  case fill => exact .map (untorn_onMemory (h.untorn_fill _ _ _ _ _ _)) _
  case compare => exact .map (untorn_onMemory (Range.untorn_reported _ (.query rfl))) _
  case find => exact .map (untorn_onMemory (Range.untorn_reported _ (.query rfl))) _
  case setShort => exact .map (untorn_onMemory (h.untorn_writeWord hhosted rfl)) _
  case setInt => exact .map (untorn_onMemory (h.untorn_writeWord hhosted rfl)) _
  case assertIntegrity => exact .map (untorn_onMemory (Integrity.untorn_check _ _)) _
  case clearArray => exact .map (untorn_onMemory (h.untorn_clear _)) _
  case makeTemplate => exact untorn_makeTemplate h.memory _ _ _
  case templateInitMatch =>
    exact .map (untorn_onBench fun t ht =>
      Bench.untorn_initMatch (b := ⟨s.card, t⟩) h.memory (hhosted rfl ht) _) _
  case templateMatch =>
    exact .map (untorn_onBench fun t ht =>
      Bench.untorn_matchData (b := ⟨s.card, t⟩) h.memory (hhosted rfl ht) _) _
  case templateResetTryLimit =>
    exact .map (untorn_onBench fun t ht =>
      Bench.untorn_resetTryLimit (b := ⟨s.card, t⟩) h.memory (hhosted rfl ht) _) _
  case templateInit => exact .map (untorn_onBench fun _ _ => Bench.untorn_update _) _
  case templateReset => exact .map (untorn_onBench fun _ _ => Bench.untorn_update _) _
  case templateUpdate => exact .map (untorn_onBench fun _ _ => Bench.untorn_onTemplate _) _
  case templateFinish => exact .map (untorn_onBench fun _ _ => Bench.untorn_onTemplate _) _
  case templateTries => exact .map (untorn_onBench fun _ _ => .query rfl) _
  case templatePublicData => exact .map (untorn_onBench fun _ _ => .query rfl) _
  case capacities => exact .query rfl
  case image => exact .query rfl
  case restore => cases hrestore
  case injectPowerLoss bytes => exact absurd rfl (harm bytes)
  case installObserver => exact untorn_onTelemetry _
  case removeObserver => exact untorn_onTelemetry _
  case totals => exact untorn_onTelemetry _
  case resetTotals => exact untorn_onTelemetry _
  -- The commands that are left ask the card, which answers without looking at the tear.
  all_goals exact .map (.query rfl) _

end Session

end SmartCard
