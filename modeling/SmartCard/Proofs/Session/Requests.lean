-- SUMMARY: What each command asks of the card's memory, and that carrying a command out does just that.
import SmartCard.Proofs.Memory.Operations
import SmartCard.Session

/-!
# Requests

A command checks its arguments, and then asks the memory for at most two operations
(`Command.request`). The checks change nothing, so that a command is its request as far as the
memory and success or failure are concerned (`Session.effect_perform`). The exception is
`Command.restore`, which replaces the memory.
-/

namespace SmartCard

variable {μ : Type}

theorem Card.exec_onMemory {α : Type} (x : Act Memory α) (card : Card) :
    (Card.onMemory x).exec card =
      ((x.exec card.memory).1, { card with memory := (x.exec card.memory).2 }) := rfl

/-- What becomes of a card that carries a request out. -/
def Card.carry (card : Card) (r : Except Fault (List Operation)) : Except Fault Unit × Card :=
  ((Operation.carry card.memory r).1, { card with memory := (Operation.carry card.memory r).2 })

namespace Command

def isRestore : Command μ → Bool
  | .restore .. => true
  | _ => false

/-- Write bytes on a lane, unless there are none. -/
def writes (lane : Lane) (array : ArrayRef) (offset : Nat) (bytes : List UInt8) : List Operation :=
  if bytes.isEmpty then [] else [.write ⟨lane, array, offset, bytes⟩]

def laneOf : Range.Protection → Lane
  | .atomic => .atomic
  | .nonAtomic => .direct

/-- What a score asks of the try counter. -/
def settling (m : Memory) (counter : ArrayRef) (score : Int16) : Except Fault (List Operation) :=
  match MatchOutcome.ofScore score with
  | .error e => .error e
  | .ok .needsMoreData => .ok []
  | .ok (.success _) => do
    let all ← TryCounter.limit m counter
    pure [.write ⟨.unconditional, counter, 1, [all]⟩]
  | .ok (.failure _) => do
    let left ← TryCounter.remaining m counter
    pure [.write ⟨.unconditional, counter, 1, [if left = 0 then 0 else left - 1]⟩]

/-- What a command on the template at a position asks, given what it asks on the template there. -/
def onTemplate (s : Session μ) (position : Nat) (f : Template μ → Except Fault (List Operation)) :
    Except Fault (List Operation) :=
  match s.templates[position]? with
  | none => .error (.unknownTemplate position)
  | some t => f t

/-- What a command asks of the memory once its checks have passed. Commands that only look ask
nothing. -/
def request [Matcher μ] (s : Session μ) (c : Command μ) : Except Fault (List Operation) :=
  let m := s.card.memory
  match c with
  | .begin => .ok [.begin]
  | .commit => .ok [.commit]
  | .abort => .ok [.abort]
  | .makePersistent kind length => do
    let n ← Memory.arrayLength .store length
    pure [.allocate ⟨kind, n, .persistent, false⟩]
  | .makeTransient kind length event =>
    match Lifetime.ofEvent? event with
    | none => .error (.unknownEvent event)
    | some lifetime =>
      if kind.allowsTransient then do
        let n ← Memory.arrayLength .store length
        pure [.allocate ⟨kind, n, lifetime, false⟩]
      else .error (.kindNotTransient kind)
  | .makeSensitive kind memoryType length => do
    let d ← Integrity.descriptorFor s.card.config.integritySensitiveSupported kind memoryType length
    pure [.allocate d]
  | .setElement array index value => do
    let (d, start) ← m.slot array index 1
    pure [.write ⟨.participating, array, start, d.kind.encode value⟩]
  | .loadElements array values =>
    if maxArrayLength < values.length then .error .tooManyElements
    else do
      let (d, _) ← m.slot array 0 values.length
      pure
        (if values.isEmpty then []
        else [.write ⟨.participating, array, 0, values.flatMap d.kind.encode⟩])
  | .copy p source sourceOffset sourceLength destination destinationOffset => do
    let plan ←
      Range.Copy.plan m.store p source sourceOffset sourceLength destination destinationOffset
    let bytes ← m.store.read source plan.sourceByte plan.byteCount
    pure (writes (laneOf p) destination plan.destinationByte bytes)
  | .fill p array offset length valueArray valueOffset => do
    let plan ← Range.Fill.plan m.store p array offset length valueArray valueOffset
    let element ← m.store.read valueArray (plan.valueOffset * plan.width) plan.width
    pure
      (writes (laneOf p) array (plan.offset * plan.width)
        (List.replicate plan.count element).flatten)
  | .setShort array offset value => do
    let start ← Packing.window m.store array offset 2
    pure [.write ⟨.participating, array, start, BigEndian.split value.toUInt16.toUInt32 2⟩]
  | .setInt array offset value => do
    let start ← Packing.window m.store array offset 4
    pure [.write ⟨.participating, array, start, BigEndian.split value.toUInt32 4⟩]
  | .clearArray array => do
    let cell ← Integrity.sensitiveCell m.store array
    let size := cell.descriptor.byteLength
    pure (if size = 0 then [] else [.write ⟨.atomic, array, 0, List.replicate size 0⟩])
  | .reset => .ok [.reset]
  | .deselect => .ok [.deselect]
  | .injectPowerLoss bytes => .ok [.arm bytes]
  | .injectBitFlip array byte mask => .ok [.flip array byte mask]
  | .makeTemplate _ limit _ => do
    TryCounter.checkLimit limit
    let array ← m.store.freeRef
    pure
      [.allocate ⟨.byte, 2, .persistent, false⟩, .write ⟨.unconditional, array, 0, [limit, limit]⟩]
  | .templateInitMatch position candidate => onTemplate s position fun t => do
    t.requireInitialized
    let left ← t.triesRemaining s.card
    if left = 0 then pure []
    else settling m t.counter (Matcher.score t.matcher t.reference candidate .initial).1
  | .templateMatch position candidate => onTemplate s position fun t =>
    if t.sessionOpen then
      settling m t.counter (Matcher.score t.matcher t.reference candidate .continuation).1
    else .error .noOpenSession
  | .templateResetTryLimit position limit => onTemplate s position fun t => do
    TryCounter.checkLimit limit
    pure [.write ⟨.unconditional, t.counter, 0, [limit, limit]⟩]
  | c => ((Session.perform c).exec s).1.map fun _ => []

end Command

/-! ## Properties of requests -/

/-- A request asks, if it is made, for operations as `P` describes them. -/
def AsksFor (P : List Operation → Prop) (r : Except Fault (List Operation)) : Prop :=
  ∀ ops, r = .ok ops → P ops

namespace AsksFor

variable {P : List Operation → Prop}

theorem refused (e : Fault) : AsksFor P (.error e) := by
  intro ops h
  cases h

theorem made {ops : List Operation} (h : P ops) : AsksFor P (.ok ops) := by
  intro ops' heq
  cases heq
  exact h

theorem checked {α : Type} {x : Except Fault α} {f : α → Except Fault (List Operation)}
    (h : ∀ a, x = .ok a → AsksFor P (f a)) : AsksFor P (x >>= f) := by
  intro ops heq
  obtain ⟨a, hx, hf⟩ := bind_eq_ok_iff.mp heq
  exact h a hx ops hf

theorem query {α : Type} (hnil : P []) (x : Except Fault α) : AsksFor P (x.map fun _ => []) := by
  rcases x with e | a
  · exact refused e
  · exact made hnil

theorem either {p : Prop} [Decidable p] {x y : Except Fault (List Operation)} (hx : AsksFor P x)
    (hy : AsksFor P y) : AsksFor P (if p then x else y) := by
  split
  · exact hx
  · exact hy

theorem writeUnless {p : Prop} [Decidable p] {w : Write} (hnil : P []) (hw : P [.write w]) :
    AsksFor P (.ok (if p then [] else [.write w])) := by
  split
  · exact made hnil
  · exact made hw

theorem settling {counter : ArrayRef} (hnil : P [])
    (hwrite : ∀ w : Write, w.array = counter → P [.write w])
    (m : Memory) (score : Int16) : AsksFor P (Command.settling m counter score) := by
  unfold Command.settling
  split
  · exact refused _
  · exact made hnil
  · exact checked fun _ _ => made (hwrite _ rfl)
  · exact checked fun _ _ => made (hwrite _ rfl)

theorem onTemplate {s : Session μ} {position : Nat} {f : Template μ → Except Fault (List Operation)}
    (h : ∀ t, s.templates[position]? = some t → AsksFor P (f t)) :
    AsksFor P (Command.onTemplate s position f) := by
  unfold Command.onTemplate
  split
  · exact refused _
  next t ht => exact h t ht

end AsksFor

end SmartCard
