-- SUMMARY: Commands do to the memory what they request, and nothing else.
import SmartCard.Proofs.Session.Requests

/-!
# Effects of commands

One lemma for each operation of the card's surface: its effect is that of its request. They are put
together in `Session.effect_perform`.
-/

namespace SmartCard

variable {μ α β : Type} {c : Config} {m : Memory}

open Operation

/-! ## Elements -/

theorem effect_write (w : Write) (m : Memory) : w.act.effect m = carry m (pure [.write w]) := by
  rw [Act.effect_unit, carry_pure, run_singleton]
  rfl

namespace Memory

theorem effect_allocate (d : Descriptor) (m : Memory) :
    (Memory.allocate d).effect m = carry m (pure [.allocate d]) := by
  rw [carry_pure, run_singleton, ← Act.effect_unit, act, Act.effect_map]

theorem effect_makeTransient (kind : Kind) (length : Int16) (event : UInt8) (m : Memory) :
    (makeTransient kind length event).effect m = carry m
      (match Lifetime.ofEvent? event with
      | none => .error (.unknownEvent event)
      | some lifetime =>
        if kind.allowsTransient then do
          let n ← Memory.arrayLength .store length
          pure [.allocate ⟨kind, n, lifetime, false⟩]
        else .error (.kindNotTransient kind)) := by
  unfold makeTransient
  rcases Lifetime.ofEvent? event with _ | lifetime
  · rfl
  · dsimp only
    by_cases hkind : kind.allowsTransient = true
    · rw [if_pos hkind, if_pos hkind]
      exact effect_query_bind fun n _ => effect_allocate _ _
    · rw [if_neg hkind, if_neg hkind]
      rfl

theorem effect_setElement (array : ArrayRef) (index : Int16) (value : Int32) (m : Memory) :
    (setElement array index value).effect m = carry m (do
      let (d, start) ← m.slot array index 1
      pure [.write ⟨.participating, array, start, d.kind.encode value⟩]) :=
  effect_query_bind fun a _ => effect_write ⟨.participating, array, a.2, a.1.kind.encode value⟩ m

theorem effect_loadElements (array : ArrayRef) (values : List Int32) (m : Memory) :
    (loadElements array values).effect m = carry m
      (if maxArrayLength < values.length then .error .tooManyElements
      else do
        let (d, _) ← m.slot array 0 values.length
        pure
          (if values.isEmpty then []
          else [.write ⟨.participating, array, 0, values.flatMap d.kind.encode⟩])) := by
  unfold loadElements
  by_cases hlength : maxArrayLength < values.length
  · rw [if_pos hlength, if_pos hlength]
    rfl
  · rw [if_neg hlength, if_neg hlength]
    refine effect_query_bind fun a _ => ?_
    obtain ⟨d, start⟩ := a
    dsimp only
    by_cases hempty : values.isEmpty = true
    · rw [if_pos hempty, if_pos hempty]
      rfl
    · rw [if_neg hempty, if_neg hempty]
      exact effect_write ⟨.participating, array, 0, values.flatMap d.kind.encode⟩ m

end Memory

namespace Packing

theorem effect_writeWord (array : ArrayRef) (offset : Int16) (word : UInt32) (width : Nat)
    (m : Memory) :
    (writeWord array offset word width).effect m = carry m (do
      let start ← window m.store array offset width
      pure [.write ⟨.participating, array, start, BigEndian.split word width⟩]) := by
  refine effect_query_bind fun start _ => ?_
  rw [Act.effect_bind_of_silent fun _ s' => ⟨_, Act.exec_pure _ s'⟩]
  exact effect_write ⟨.participating, array, start, BigEndian.split word width⟩ m

end Packing

namespace Integrity

theorem effect_clear (array : ArrayRef) (m : Memory) :
    (clear array).effect m = carry m (do
      let cell ← sensitiveCell m.store array
      let size := cell.descriptor.byteLength
      pure (if size = 0 then [] else [.write ⟨.atomic, array, 0, List.replicate size 0⟩])) := by
  refine effect_query_bind fun cell _ => ?_
  dsimp only
  by_cases hsize : cell.descriptor.byteLength = 0
  · rw [if_pos hsize, if_pos hsize]
    rfl
  · rw [if_neg hsize, if_neg hsize]
    exact effect_write ⟨.atomic, array, 0, List.replicate cell.descriptor.byteLength 0⟩ m

end Integrity

/-! ## Range operations -/

namespace Range

theorem effect_reported (operation : RangeOperation) (x : Act Memory (α × Nat)) (m : Memory) :
    (reported operation x).effect m = x.effect m := by
  simp only [reported, Act.effect, Act.exec_bind, Act.exec_onFault, Act.exec_emit, Act.exec_pure]
  rcases (x.exec m).1 with _ | _ <;> rfl

theorem effect_write (p : Protection) (array : ArrayRef) (offset : Nat) (bytes : List UInt8)
    (m : Memory) :
    (write p array offset bytes).effect m =
      carry m (pure (Command.writes (Command.laneOf p) array offset bytes)) := by
  unfold write Command.writes
  by_cases hempty : bytes.isEmpty = true
  · rw [if_pos hempty, if_pos hempty]
    rfl
  · rw [if_neg hempty, if_neg hempty]
    cases p with
    | atomic => exact SmartCard.effect_write ⟨.atomic, array, offset, bytes⟩ m
    | nonAtomic => exact SmartCard.effect_write ⟨.direct, array, offset, bytes⟩ m

/-- An index within an array is a short. -/
theorem toInt_ofNat_of_le {n : Nat} (h : n ≤ maxArrayLength) : (Int16.ofNat n).toInt = n := by
  unfold maxArrayLength at h
  exact Int16.toInt_ofNat_of_lt (by omega)

theorem shortIndex_of_le {n : Nat} (h : n ≤ maxArrayLength) : shortIndex n = .ok (Int16.ofNat n) :=
  if_pos h

/-- What a transfer does once its bytes are known: it writes them and tells how far it came. -/
theorem effect_transfer {p : Protection} {array : ArrayRef} {offset last elements : Nat}
    {bytes : List UInt8} (h : last ≤ maxArrayLength) (m : Memory) :
    (do
      write p array offset bytes
      let next ← Act.query fun _ => shortIndex last
      pure (next, elements) : Act Memory (Int16 × Nat)).effect m =
        carry m (pure (Command.writes (Command.laneOf p) array offset bytes)) := by
  rw [Act.effect_bind_of_silent fun _ s' => ⟨(Int16.ofNat last, elements), ?_⟩]
  · exact effect_write p array offset bytes m
  · rw [Act.exec_bind, Act.exec_query, shortIndex_of_le h]
    rfl

theorem operand_eq_ok_iff {s : Store} {array : ArrayRef} {x : Operand} :
    operand s array = .ok x ↔
      ∃ d, s.descriptor .array array = .ok d ∧ d.kind.isNumeric = true ∧ x = ⟨array, d⟩ := by
  unfold operand
  rw [bind_eq_ok_iff]
  refine exists_congr fun d => and_congr_right fun _ => ?_
  by_cases hnumeric : d.kind.isNumeric = true
  · simp [hnumeric, pure, Except.pure, eq_comm]
  · simp [hnumeric, throw, throwThe, MonadExceptOf.throw]

theorem operands_eq_ok {s : Store} {first second : ArrayRef} {x y : Operand}
    (h : operands s first second = .ok (x, y)) :
    operand s first = .ok x ∧ operand s second = .ok y := by
  unfold operands at h
  split at h
  · cases h
  · split at h
    · cases h
    · obtain ⟨x', hx, h⟩ := bind_eq_ok_iff.mp h
      obtain ⟨y', hy, h⟩ := bind_eq_ok_iff.mp h
      cases h
      exact ⟨hx, hy⟩

theorem operand_length_le {s : Store} (h : s.Sound c) {array : ArrayRef} {x : Operand}
    (hx : operand s array = .ok x) : x.length ≤ maxArrayLength := by
  obtain ⟨d, hd, _, rfl⟩ := operand_eq_ok_iff.mp hx
  exact h.length_le (h.descriptor_iff.mp hd)

theorem checkKinds_eq_ok_iff {x y : Operand} : checkKinds x y = .ok () ↔ x.kind = y.kind := by
  unfold checkKinds
  split <;> simp [*]

theorem checkRange_eq_ok_iff {role : RangeRole} {x : Operand} {offset count : Nat} :
    checkRange role x offset count = .ok () ↔ offset + count ≤ x.length := by
  unfold checkRange
  split <;> simp [*]

theorem natural_eq_ok_iff {argument : Argument} {value : Int16} {n : Nat} :
    natural argument value = .ok n ↔ index? value = some n := by
  unfold natural
  rcases index? value with _ | m <;> simp

/-- What the checks of a copy establish. -/
theorem Copy.plan_eq_ok {s : Store} {p : Protection} {source destination : ArrayRef}
    {sourceOffset sourceLength destinationOffset : Int16} {plan : Copy}
    (h : Copy.plan s p source sourceOffset sourceLength destination destinationOffset = .ok plan) :
    ∃ x y start count target, operand s source = .ok x ∧ operand s destination = .ok y ∧
      index? sourceOffset = some start ∧ index? sourceLength = some count ∧
      index? destinationOffset = some target ∧ start + count ≤ x.length ∧
      repackedCount x.kind y.kind count = .ok plan.elements ∧ target + plan.elements ≤ y.length ∧
      checkProtection p y = .ok () ∧
      plan = ⟨start * x.width, count * x.width, target * y.width, target, plan.elements⟩ := by
  unfold Copy.plan at h
  obtain ⟨⟨x, y⟩, hxy, h⟩ := bind_eq_ok_iff.mp h
  obtain ⟨start, hstart, h⟩ := bind_eq_ok_iff.mp h
  obtain ⟨count, hcount, h⟩ := bind_eq_ok_iff.mp h
  obtain ⟨target, htarget, h⟩ := bind_eq_ok_iff.mp h
  obtain ⟨_, hsource, h⟩ := bind_eq_ok_iff.mp h
  obtain ⟨elements, helements, h⟩ := bind_eq_ok_iff.mp h
  obtain ⟨_, hdestination, h⟩ := bind_eq_ok_iff.mp h
  obtain ⟨_, hprotection, h⟩ := bind_eq_ok_iff.mp h
  cases h
  obtain ⟨hx, hy⟩ := operands_eq_ok hxy
  exact ⟨x, y, start, count, target, hx, hy, natural_eq_ok_iff.mp hstart,
    natural_eq_ok_iff.mp hcount,
    natural_eq_ok_iff.mp htarget, checkRange_eq_ok_iff.mp hsource, helements,
    checkRange_eq_ok_iff.mp hdestination, hprotection, rfl⟩

/-- What the checks of a fill establish. -/
theorem Fill.plan_eq_ok {s : Store} {p : Protection} {array valueArray : ArrayRef}
    {offset length valueOffset : Int16} {plan : Fill}
    (h : Fill.plan s p array offset length valueArray valueOffset = .ok plan) :
    ∃ x y, operand s array = .ok x ∧ operand s valueArray = .ok y ∧ x.kind = y.kind ∧
      index? offset = some plan.offset ∧ index? length = some plan.count ∧
      index? valueOffset = some plan.valueOffset ∧ plan.offset + plan.count ≤ x.length ∧
      plan.valueOffset + 1 ≤ y.length ∧ checkProtection p x = .ok () ∧ plan.width = x.width := by
  unfold Fill.plan at h
  obtain ⟨⟨x, y⟩, hxy, h⟩ := bind_eq_ok_iff.mp h
  obtain ⟨_, hkinds, h⟩ := bind_eq_ok_iff.mp h
  obtain ⟨start, hstart, h⟩ := bind_eq_ok_iff.mp h
  obtain ⟨count, hcount, h⟩ := bind_eq_ok_iff.mp h
  obtain ⟨value, hvalue, h⟩ := bind_eq_ok_iff.mp h
  obtain ⟨_, hfill, h⟩ := bind_eq_ok_iff.mp h
  obtain ⟨_, hvalues, h⟩ := bind_eq_ok_iff.mp h
  obtain ⟨_, hprotection, h⟩ := bind_eq_ok_iff.mp h
  cases h
  obtain ⟨hx, hy⟩ := operands_eq_ok hxy
  exact ⟨x, y, hx, hy, checkKinds_eq_ok_iff.mp hkinds, natural_eq_ok_iff.mp hstart,
    natural_eq_ok_iff.mp hcount, natural_eq_ok_iff.mp hvalue, checkRange_eq_ok_iff.mp hfill, checkRange_eq_ok_iff.mp hvalues,
    hprotection, rfl⟩

theorem effect_copy (h : m.store.Sound c) (p : Protection) (source : ArrayRef)
    (sourceOffset sourceLength : Int16) (destination : ArrayRef) (destinationOffset : Int16) :
    (copy p source sourceOffset sourceLength destination destinationOffset).effect m = carry m (do
      let plan ← Copy.plan m.store p source sourceOffset sourceLength destination destinationOffset
      let bytes ← m.store.read source plan.sourceByte plan.byteCount
      pure (Command.writes (Command.laneOf p) destination plan.destinationByte bytes)) := by
  unfold copy
  rw [effect_reported]
  refine effect_query_bind fun plan hplan => effect_query_bind fun bytes _ => effect_transfer ?_ m
  obtain ⟨x, y, start, count, target, _, hy, _, _, _, _, _, hrange, _, hplan⟩ :=
    Copy.plan_eq_ok hplan
  rw [hplan]
  exact Nat.le_trans hrange (operand_length_le h hy)

theorem effect_fill (h : m.store.Sound c) (p : Protection) (array : ArrayRef)
    (offset length : Int16) (valueArray : ArrayRef) (valueOffset : Int16) :
    (fill p array offset length valueArray valueOffset).effect m = carry m (do
      let plan ← Fill.plan m.store p array offset length valueArray valueOffset
      let element ← m.store.read valueArray (plan.valueOffset * plan.width) plan.width
      pure (Command.writes (Command.laneOf p) array (plan.offset * plan.width)
        (List.replicate plan.count element).flatten)) := by
  unfold fill
  rw [effect_reported]
  refine effect_query_bind fun plan hplan => effect_query_bind fun element _ => effect_transfer ?_ m
  obtain ⟨x, y, hx, _, _, _, _, _, hrange, _⟩ := Fill.plan_eq_ok hplan
  exact Nat.le_trans hrange (operand_length_le h hx)

end Range

/-! ## Try counters -/

namespace TryCounter

theorem effect_refill (array : ArrayRef) (limit : UInt8) (m : Memory) :
    (refill array limit).effect m = carry m (do
      checkLimit limit
      pure [.write ⟨.unconditional, array, 0, [limit, limit]⟩]) :=
  effect_query_bind fun _ _ => effect_write ⟨.unconditional, array, 0, [limit, limit]⟩ m

theorem effect_spend (array : ArrayRef) (m : Memory) :
    (spend array).effect m = carry m (do
      let left ← remaining m array
      pure [.write ⟨.unconditional, array, 1, [if left = 0 then 0 else left - 1]⟩]) := by
  refine effect_query_bind fun left _ => ?_
  rw [Act.effect_bind_of_silent fun _ s' => ⟨_, Act.exec_pure _ s'⟩]
  exact effect_write ⟨.unconditional, array, 1, [if left = 0 then 0 else left - 1]⟩ m

theorem effect_restoreTries (array : ArrayRef) (m : Memory) :
    (restoreTries array).effect m = carry m (do
      let all ← limit m array
      pure [.write ⟨.unconditional, array, 1, [all]⟩]) :=
  effect_query_bind fun all _ => effect_write ⟨.unconditional, array, 1, [all]⟩ m

theorem effect_make (limit : UInt8) (m : Memory) :
    (make limit).effect m = carry m (do
      checkLimit limit
      let array ← m.store.freeRef
      pure
        [.allocate ⟨.byte, 2, .persistent, false⟩,
          .write ⟨.unconditional, array, 0, [limit, limit]⟩]) := by
  refine effect_query_bind fun _ hlimit => ?_
  rcases hallocate : m.store.allocate ⟨.byte, 2, .persistent, false⟩ with e | ⟨array, s⟩
  · have heffect : ∀ f : ArrayRef → Act Memory ArrayRef,
        (Memory.allocate ⟨.byte, 2, .persistent, false⟩ >>= f).effect m = (.error e, m) := by
      intro f
      rw [Act.effect, Act.exec_bind_of_error (Memory.exec_allocate_of_error hallocate)]
      rfl
    rw [heffect]
    rcases hfree : m.store.freeRef with e' | array
    · have he : e' = e := by
        rw [Store.allocate, if_neg (by decide), hfree] at hallocate
        cases hallocate
        rfl
      rw [he]
      rfl
    · show _ = run m _
      rw [run, exec_allocate, hallocate]
  · rw [Store.freeRef_of_allocate hallocate]
    show _ = run m _
    rw [run, exec_allocate, hallocate, Act.effect,
      Act.exec_bind_of_ok (Memory.exec_allocate_of_ok hallocate), ← Act.effect,
      Act.effect_bind_of_silent fun _ s' => ⟨_, Act.exec_pure _ s'⟩, effect_refill, hlimit]
    rfl

end TryCounter

/-! ## Templates -/

namespace Bench

/-- Success or failure of an act on a template and its card, and the card it leaves behind. -/
def cardEffect (x : Act (Bench μ) α) (b : Bench μ) : Except Fault Unit × Card :=
  ((x.effect b).1, (x.effect b).2.card)

theorem exec_update (f : Template μ → Template μ) (b : Bench μ) :
    (update f).exec b = (.ok (), { b with template := f b.template }) := rfl

theorem exec_onMemory (x : Act Memory α) (b : Bench μ) :
    (onMemory x).exec b =
      ((x.exec b.card.memory).1,
        { b with card := { b.card with memory := (x.exec b.card.memory).2 } }) := rfl

/-- A template is settled in its own fields first; what is done to the card is what counts here. -/
theorem cardEffect_update_onMemory {x : Act Memory α} {b : Bench μ} {f : Template μ → Template μ}
    {β : Type} {a : β} {r : Except Fault (List Operation)}
    (h : x.effect b.card.memory = Operation.carry b.card.memory r) :
    cardEffect (do
      update f
      let _ ← onMemory x
      pure a) b = b.card.carry r := by
  unfold cardEffect Card.carry
  rw [← h]
  simp only [Act.effect, Act.exec_bind, exec_update, exec_onMemory, Act.exec_pure]
  rcases (x.exec b.card.memory).1 with _ | _ <;> rfl

theorem cardEffect_read_bind {f : Bench μ → α} {g : α → Act (Bench μ) β} (b : Bench μ) :
    cardEffect (Act.read f >>= g) b = cardEffect (g (f b)) b := by
  unfold cardEffect Act.effect
  rw [Act.exec_bind_of_ok (Act.exec_read f b)]

theorem cardEffect_update_bind {f : Template μ → Template μ} {g : Unit → Act (Bench μ) β}
    (b : Bench μ) :
    cardEffect (update f >>= g) b = cardEffect (g ()) { b with template := f b.template } := by
  unfold cardEffect Act.effect
  rw [Act.exec_bind_of_ok (exec_update f b)]

theorem cardEffect_settle (score : Int16) (b : Bench μ) :
    cardEffect (settle score) b =
      b.card.carry (Command.settling b.card.memory b.template.counter score) := by
  unfold settle Command.settling
  rw [cardEffect_read_bind]
  rcases MatchOutcome.ofScore score with e | _ | _ | _
  · dsimp only
    rw [cardEffect_update_bind]
    rfl
  · dsimp only
    apply cardEffect_update_onMemory
    rw [Act.effect_bind_of_silent fun _ s' => ⟨(), Act.exec_note _ s'⟩]
    exact TryCounter.effect_restoreTries _ _
  · dsimp only
    apply cardEffect_update_onMemory
    rw [Act.effect_bind_of_silent fun _ s' => ⟨(), Act.exec_note _ s'⟩]
    exact TryCounter.effect_spend _ _
  · dsimp only
    rw [cardEffect_update_bind]
    rfl

theorem cardEffect_query_bind {f : Bench μ → Except Fault α} {g : α → Act (Bench μ) β} {b : Bench μ}
    {r : α → Except Fault (List Operation)}
    (h : ∀ a, f b = .ok a → cardEffect (g a) b = b.card.carry (r a)) :
    cardEffect (Act.query f >>= g) b = b.card.carry (f b >>= r) := by
  rcases hf : f b with e | a
  · unfold cardEffect Act.effect
    rw [Act.exec_query_bind_of_error f hf]
    rfl
  · rw [show (Except.ok a >>= r) = r a from rfl, ← h a hf]
    unfold cardEffect Act.effect
    rw [Act.exec_query_bind_of_ok f hf]

theorem cardEffect_consult_settle [Matcher μ] (candidate : List UInt8) (phase : MatchPhase)
    (b : Bench μ) :
    cardEffect (do
      let score ← consult candidate phase
      settle score) b =
        b.card.carry (Command.settling b.card.memory b.template.counter
          (Matcher.score b.template.matcher b.template.reference candidate phase).1) := by
  have hconsult : (consult candidate phase).exec b =
      (.ok (Matcher.score b.template.matcher b.template.reference candidate phase).1,
        { b with template := { b.template with
          matcher := (Matcher.score b.template.matcher b.template.reference candidate phase).2 } }) := rfl
  rw [cardEffect, Act.effect, Act.exec_bind_of_ok hconsult, ← Act.effect, ← cardEffect,
    cardEffect_settle]

theorem cardEffect_initMatch [Matcher μ] (candidate : List UInt8) (b : Bench μ) :
    cardEffect (initMatch candidate) b = b.card.carry (do
      b.template.requireInitialized
      let left ← b.template.triesRemaining b.card
      if left = 0 then pure []
      else
        Command.settling b.card.memory b.template.counter
          (Matcher.score b.template.matcher b.template.reference candidate .initial).1) := by
  refine cardEffect_query_bind fun _ _ => ?_
  rw [cardEffect_update_bind, cardEffect_read_bind]
  refine cardEffect_query_bind fun left _ => ?_
  by_cases hleft : left = 0
  · rw [if_pos hleft, if_pos hleft]
    rfl
  · rw [if_neg hleft, if_neg hleft]
    exact cardEffect_consult_settle candidate .initial { b with template := b.template.reset }

theorem cardEffect_matchData [Matcher μ] (candidate : List UInt8) (b : Bench μ) :
    cardEffect (matchData candidate) b = b.card.carry
      (if b.template.sessionOpen then
        Command.settling b.card.memory b.template.counter
          (Matcher.score b.template.matcher b.template.reference candidate .continuation).1
      else .error .noOpenSession) := by
  unfold matchData
  rw [cardEffect_read_bind]
  by_cases hopen : b.template.sessionOpen = true
  · rw [if_pos hopen, if_pos hopen]
    exact cardEffect_consult_settle candidate .continuation b
  · rw [if_neg hopen, if_neg hopen]
    rfl

theorem cardEffect_resetTryLimit (limit : UInt8) (b : Bench μ) :
    cardEffect (resetTryLimit limit) b = b.card.carry (do
      TryCounter.checkLimit limit
      pure [.write ⟨.unconditional, b.template.counter, 0, [limit, limit]⟩]) := by
  unfold resetTryLimit
  rw [cardEffect_read_bind]
  unfold cardEffect Card.carry
  rw [← TryCounter.effect_refill]
  simp only [Act.effect, Act.exec_bind, exec_update, exec_onMemory]
  rcases ((TryCounter.refill b.template.counter limit).exec b.card.memory).1 with _ | _ <;> rfl

end Bench

/-! ## Sessions -/

namespace Session

/-- Success or failure of an act on a session, and the card it leaves behind. -/
def cardEffect (x : Act (Session μ) α) (s : Session μ) : Except Fault Unit × Card :=
  ((x.effect s).1, (x.effect s).2.card)

theorem cardEffect_map (f : α → β) (x : Act (Session μ) α) (s : Session μ) :
    cardEffect (f <$> x) s = cardEffect x s := by
  unfold cardEffect
  rw [Act.effect_map]

theorem cardEffect_onMemory {x : Act Memory α} {s : Session μ} {r : Except Fault (List Operation)}
    (h : x.effect s.card.memory = Operation.carry s.card.memory r) :
    cardEffect (onCard (Card.onMemory x)) s = s.card.carry r := by
  unfold Card.carry
  rw [← h]
  rfl

theorem exec_onBench (x : Act (Bench μ) α) (s : Session μ) (position : Nat) :
    (onBench position x).exec s = match s.templates[position]? with
      | none => (.error (.unknownTemplate position), s)
      | some t =>
        ((x.exec ⟨s.card, t⟩).1,
          { s with
            card := (x.exec ⟨s.card, t⟩).2.card
            templates := s.templates.set position (x.exec ⟨s.card, t⟩).2.template }) := by
  unfold Act.exec onBench
  rcases ht : s.templates[position]? with _ | t <;> simp only

theorem cardEffect_onBench {x : Act (Bench μ) α} {s : Session μ} {position : Nat}
    {r : Template μ → Except Fault (List Operation)}
    (h : ∀ t, Bench.cardEffect x ⟨s.card, t⟩ = s.card.carry (r t)) :
    cardEffect (onBench position x) s = s.card.carry (Command.onTemplate s position r) := by
  unfold cardEffect Act.effect Command.onTemplate
  rw [exec_onBench]
  rcases s.templates[position]? with _ | t
  · rfl
  · exact h t

/-- An act that leaves the card alone asks nothing of it. -/
theorem cardEffect_of_silent {x : Act (Session μ) α} {s : Session μ}
    (h : (x.exec s).2.card = s.card) :
    cardEffect x s = s.card.carry ((x.exec s).1.map fun _ => []) := by
  unfold cardEffect Act.effect Card.carry
  rw [h, Operation.carry_map_nil]

theorem silent_askCard (f : α → β) (g : Card → Except Fault α) (s : Session μ) :
    ((f <$> askCard g).exec s).2.card = s.card := by
  rw [Act.exec_map, askCard, Act.exec_query]

theorem silent_onMemory {x : Act Memory α} (hx : ∀ m, (x.exec m).2 = m) (f : α → β)
    (s : Session μ) :
    ((f <$> onCard (Card.onMemory x)).exec s).2.card = s.card := by
  rw [Act.exec_map]
  show ({ s.card with memory := (x.exec s.card.memory).2 } : Card) = s.card
  rw [hx]

theorem silent_onTemplate {x : Act (Bench μ) α} (hx : ∀ b, (x.exec b).2.card = b.card)
    (position : Nat) (f : α → β) (s : Session μ) :
    ((f <$> onBench position x).exec s).2.card = s.card := by
  rw [Act.exec_map, exec_onBench]
  rcases s.templates[position]? with _ | t
  · rfl
  · exact hx ⟨s.card, t⟩

theorem silent_reported {x : Memory → Except Fault (α × Nat)} (operation : RangeOperation)
    (m : Memory) :
    ((Range.reported operation (.query x)).exec m).2 = m := by
  simp only [Range.reported, Act.exec_bind, Act.exec_onFault, Act.exec_query, Act.exec_emit,
    Act.exec_pure]
  rcases x m with _ | _ <;> rfl

theorem silent_check (array : ArrayRef) (m : Memory) : ((Integrity.check array).exec m).2 = m := by
  unfold Integrity.check
  rw [Act.exec_bind, Act.exec_query]
  rcases Integrity.sensitiveCell m.store array with _ | cell
  · rfl
  · dsimp only
    split
    · rfl
    · rfl

theorem exec_makeTemplate (bioType limit : UInt8) (matcher : μ) (card : Card) :
    (Template.make bioType limit matcher).exec card =
      (((TryCounter.make limit).exec card.memory).1.map (Template.blank bioType · matcher),
        { card with memory := ((TryCounter.make limit).exec card.memory).2 }) := by
  rw [Template.make, Act.exec_bind, Card.exec_onMemory]
  rcases ((TryCounter.make limit).exec card.memory).1 with _ | _ <;> rfl

theorem cardEffect_makeTemplate (bioType limit : UInt8) (matcher : μ) (s : Session μ) :
    cardEffect (makeTemplate bioType limit matcher) s = s.card.carry (do
      TryCounter.checkLimit limit
      let array ← s.card.memory.store.freeRef
      pure
        [.allocate ⟨.byte, 2, .persistent, false⟩,
          .write ⟨.unconditional, array, 0, [limit, limit]⟩]) := by
  unfold cardEffect Card.carry makeTemplate Act.effect
  rw [← TryCounter.effect_make, Act.exec_bind, onCard, Act.exec_zoom, exec_makeTemplate]
  unfold Act.effect
  rcases ((TryCounter.make limit).exec s.card.memory).1 with _ | _ <;> rfl

theorem cardEffect_operation {x : Act Memory Unit} (op : Operation) (hx : op.act = x)
    (s : Session μ) :
    cardEffect ((fun _ => Reply.done) <$> onCard (Card.onMemory x)) s =
      s.card.carry (.ok [op]) := by
  rw [cardEffect_map]
  apply cardEffect_onMemory
  rw [← hx, Act.effect_unit, carry_ok, run_singleton]

/-- A command has the effect of its request. -/
theorem effect_perform [Matcher μ] {s : Session μ} (h : s.card.memory.Sound s.card.config)
    {c : Command μ} (hc : c.isRestore = false) :
    cardEffect (perform c) s = s.card.carry (c.request s) := by
  cases c
  case restore => cases hc
  case begin => exact cardEffect_operation .begin rfl s
  case commit => exact cardEffect_operation .commit rfl s
  case abort => exact cardEffect_operation .abort rfl s
  case injectPowerLoss bytes => exact cardEffect_operation (.arm bytes) rfl s
  case injectBitFlip array byte mask => exact cardEffect_operation (.flip array byte mask) rfl s
  case reset =>
    rw [perform, cardEffect_map]
    apply cardEffect_onMemory
    rw [← Act.effect_map (fun _ => ()), Act.effect_unit]
    exact (run_singleton _ .reset).symm
  case deselect =>
    rw [perform, cardEffect_map]
    apply cardEffect_onMemory
    rw [← Act.effect_map (fun _ => ()), Act.effect_unit]
    exact (run_singleton _ .deselect).symm
  case makePersistent kind length =>
    rw [perform, cardEffect_map]
    exact cardEffect_onMemory (effect_query_bind fun n _ => Memory.effect_allocate _ _)
  case makeTransient kind length event =>
    rw [perform, cardEffect_map]
    exact cardEffect_onMemory (Memory.effect_makeTransient kind length event _)
  case makeSensitive kind memoryType length =>
    rw [perform, cardEffect_map]
    refine cardEffect_onMemory (effect_query_bind fun d _ => ?_)
    rw [Act.effect_bind_of_silent fun array s' => ⟨array, rfl⟩]
    exact Memory.effect_allocate _ _
  case setElement array index value =>
    rw [perform, cardEffect_map]
    exact cardEffect_onMemory (Memory.effect_setElement array index value _)
  case loadElements array values =>
    rw [perform, cardEffect_map]
    exact cardEffect_onMemory (Memory.effect_loadElements array values _)
  case copy p source sourceOffset sourceLength destination destinationOffset =>
    rw [perform, cardEffect_map]
    exact cardEffect_onMemory
      (Range.effect_copy h.store p source sourceOffset sourceLength destination
      destinationOffset)
  case fill p array offset length valueArray valueOffset =>
    rw [perform, cardEffect_map]
    exact cardEffect_onMemory
      (Range.effect_fill h.store p array offset length valueArray valueOffset)
  case setShort array offset value =>
    rw [perform, cardEffect_map]
    exact cardEffect_onMemory (Packing.effect_writeWord array offset _ 2 _)
  case setInt array offset value =>
    rw [perform, cardEffect_map]
    exact cardEffect_onMemory (Packing.effect_writeWord array offset _ 4 _)
  case clearArray array =>
    rw [perform, cardEffect_map]
    exact cardEffect_onMemory (Integrity.effect_clear array _)
  case makeTemplate bioType limit matcher => exact cardEffect_makeTemplate bioType limit matcher s
  case templateInitMatch position candidate =>
    rw [perform, cardEffect_map]
    exact cardEffect_onBench fun t => Bench.cardEffect_initMatch candidate ⟨s.card, t⟩
  case templateMatch position candidate =>
    rw [perform, cardEffect_map]
    exact cardEffect_onBench fun t => Bench.cardEffect_matchData candidate ⟨s.card, t⟩
  case templateResetTryLimit position limit =>
    rw [perform, cardEffect_map]
    exact cardEffect_onBench fun t => Bench.cardEffect_resetTryLimit limit ⟨s.card, t⟩
  case compare => exact cardEffect_of_silent (silent_onMemory (silent_reported _) _ s)
  case find => exact cardEffect_of_silent (silent_onMemory (silent_reported _) _ s)
  case assertIntegrity array =>
    exact cardEffect_of_silent (silent_onMemory (silent_check array) _ s)
  case templateInit => exact cardEffect_of_silent (silent_onTemplate (fun _ => rfl) _ _ s)
  case templateUpdate => exact cardEffect_of_silent (silent_onTemplate (fun _ => rfl) _ _ s)
  case templateFinish => exact cardEffect_of_silent (silent_onTemplate (fun _ => rfl) _ _ s)
  case templateReset => exact cardEffect_of_silent (silent_onTemplate (fun _ => rfl) _ _ s)
  case templateTries => exact cardEffect_of_silent (silent_onTemplate (fun _ => rfl) _ _ s)
  case templatePublicData => exact cardEffect_of_silent (silent_onTemplate (fun _ => rfl) _ _ s)
  -- The commands that are left look at the card or at the telemetry.
  all_goals first
    | exact cardEffect_of_silent (silent_askCard _ _ s)
    | exact cardEffect_of_silent rfl

end Session

end SmartCard
