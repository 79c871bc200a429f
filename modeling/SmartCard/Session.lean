-- SUMMARY: Sessions: one card, its templates and its telemetry, driven by commands.
import SmartCard.Telemetry
import SmartCard.Template

/-!
# Sessions

A session is a card in use: the card, the templates that live on it, and whoever receives its
events. A `Command` is one thing that can be asked of it and a `Reply` what comes back.
`Session.step` runs one command and delivers the events, so that a run is a sequence of commands
(`Session.run`). A command that fails does not end the session.
-/

namespace SmartCard

variable {μ α : Type}

/-- What can be asked of a session. -/
inductive Command (μ : Type) where
  /- Transactions. -/
  | begin
  | commit
  | abort
  | capacities
  /- Arrays. -/
  | makePersistent (kind : Kind) (length : Int16)
  | makeTransient (kind : Kind) (length : Int16) (event : UInt8)
  | makeSensitive (kind : Kind) (memoryType : UInt8) (length : Int16)
  | descriptor (array : ArrayRef)
  | isTransient (array : ArrayRef)
  | availableMemory (memoryType : UInt8)
  | availableMemoryExtended (memoryType : UInt8)
  | getElement (array : ArrayRef) (index : Int16)
  | setElement (array : ArrayRef) (index : Int16) (value : Int32)
  | loadElements (array : ArrayRef) (values : List Int32)
  | elements (array : ArrayRef)
  | rawBytes (array : ArrayRef)
  /- Range operations. -/
  | copy (p : Range.Protection) (source : ArrayRef) (sourceOffset sourceLength : Int16)
    (destination : ArrayRef) (destinationOffset : Int16)
  | fill (p : Range.Protection) (array : ArrayRef) (offset length : Int16) (valueArray : ArrayRef)
    (valueOffset : Int16)
  | compare (left : ArrayRef) (leftOffset : Int16) (right : ArrayRef) (rightOffset length : Int16)
  | find (array : ArrayRef) (offset : Int16) (valueArray : ArrayRef) (valueOffset : Int16)
  /- Packed values and integrity. -/
  | getShort (array : ArrayRef) (offset : Int16)
  | setShort (array : ArrayRef) (offset value : Int16)
  | getInt (array : ArrayRef) (offset : Int16)
  | setInt (array : ArrayRef) (offset : Int16) (value : Int32)
  | isSensitive (array : ArrayRef)
  | assertIntegrity (array : ArrayRef)
  | clearArray (array : ArrayRef)
  /- Card events, injected faults and images. -/
  | reset
  | deselect
  | injectPowerLoss (bytes : UInt64)
  | injectBitFlip (array : ArrayRef) (byte : Nat) (mask : UInt8)
  | image
  | restore (config : Config) (bytes : List UInt8)
  /- Templates. -/
  | makeTemplate (bioType limit : UInt8) (matcher : μ)
  | templateInit (template : Nat) (data : List UInt8)
  | templateUpdate (template : Nat) (data : List UInt8)
  | templateFinish (template : Nat)
  | templateReset (template : Nat)
  | templateInitMatch (template : Nat) (candidate : List UInt8)
  | templateMatch (template : Nat) (candidate : List UInt8)
  | templateResetTryLimit (template : Nat) (limit : UInt8)
  | templateTries (template : Nat)
  | templatePublicData (template offset size : Nat)
  /- Telemetry. -/
  | installObserver
  | removeObserver
  | totals
  | resetTotals

/-- What a command returns. -/
inductive Reply where
  | done
  | array (a : ArrayRef)
  | template (position : Nat) (counter : ArrayRef)
  | flag (b : Bool)
  | sign (n : Int8)
  | code (n : UInt8)
  | short (n : Int16)
  | int (n : Int32)
  | size (n : UInt32)
  | count (n : Nat)
  | values (ns : List Int32)
  | bytes (bs : List UInt8)
  | descriptor (d : Descriptor)
  | capacities (depth : UInt8) (unused max : Int16) (unusedExtended : UInt32)
  | events (es : List Event)
  | totals (t : Totals)
  deriving DecidableEq

/-- A card in use. -/
structure Session (μ : Type) where
  card : Card
  templates : List (Template μ)
  telemetry : Telemetry

namespace Session

/-- The session of a card without templates, with fresh totals. -/
def start (card : Card) : Session μ := ⟨card, [], {}⟩

/-! ## Parts of a session -/

def onCard (x : Act Card α) : Act (Session μ) α :=
  x.zoom Session.card fun s c => { s with card := c }

/-- Ask the card. -/
def askCard (f : Card → Except Fault α) : Act (Session μ) α := .query fun s => f s.card

/-- Run an act on a template and the card. -/
def onBench (position : Nat) (x : Act (Bench μ) α) : Act (Session μ) α := fun s =>
  match s.templates[position]? with
  | none => ⟨.error (.unknownTemplate position), s, [], []⟩
  | some t =>
    let o := x ⟨s.card, t⟩
    ⟨o.result,
      { s with card := o.state.card, templates := s.templates.set position o.state.template },
      o.events, o.notes⟩

def onTelemetry (f : Telemetry → α × Telemetry) : Act (Session μ) α := fun s =>
  ⟨.ok (f s.telemetry).1, { s with telemetry := (f s.telemetry).2 }, [], []⟩

/-- Make a template and put it behind those there are. -/
def makeTemplate (bioType limit : UInt8) (matcher : μ) : Act (Session μ) Reply := do
  let t ← onCard (Template.make bioType limit matcher)
  let position ← Act.read fun s => s.templates.length
  Act.modify fun s => { s with templates := s.templates ++ [t] }
  pure (.template position t.counter)

/-! ## Commands -/

/-- Carry a command out. -/
def perform [Matcher μ] : Command μ → Act (Session μ) Reply
  | .begin => (fun _ => .done) <$> onCard Card.beginTransaction
  | .commit => (fun _ => .done) <$> onCard Card.commitTransaction
  | .abort => (fun _ => .done) <$> onCard Card.abortTransaction
  | .capacities => Act.read fun s =>
    .capacities s.card.transactionDepth s.card.unusedCommitCapacity s.card.maxCommitCapacity
      s.card.unusedCommitCapacityExtended
  | .makePersistent kind length => .array <$> onCard (Card.makePersistentArray kind length)
  | .makeTransient kind length event =>
    .array <$> onCard (Card.makeTransientArray kind length event)
  | .makeSensitive kind memoryType length =>
    .array <$> onCard (Card.makeSensitiveArray kind memoryType length)
  | .descriptor array => .descriptor <$> askCard (·.descriptor array)
  | .isTransient array => .code <$> askCard (·.isTransient array)
  | .availableMemory memoryType => .short <$> askCard (·.availableMemory memoryType)
  | .availableMemoryExtended memoryType =>
    .size <$> askCard (·.availableMemoryExtended memoryType)
  | .getElement array index => .int <$> askCard (·.getElement array index)
  | .setElement array index value =>
    (fun _ => .done) <$> onCard (Card.setElement array index value)
  | .loadElements array values => (fun _ => .done) <$> onCard (Card.loadElements array values)
  | .elements array => .values <$> askCard (·.elements array)
  | .rawBytes array => .bytes <$> askCard (·.rawBytes array)
  | .copy p source sourceOffset sourceLength destination destinationOffset =>
    .short <$> onCard
      (Card.copy p source sourceOffset sourceLength destination destinationOffset)
  | .fill p array offset length valueArray valueOffset =>
    .short <$> onCard (Card.fill p array offset length valueArray valueOffset)
  | .compare left leftOffset right rightOffset length =>
    .sign <$> onCard (Card.compare left leftOffset right rightOffset length)
  | .find array offset valueArray valueOffset =>
    .short <$> onCard (Card.find array offset valueArray valueOffset)
  | .getShort array offset => .short <$> askCard (·.getShort array offset)
  | .setShort array offset value => .short <$> onCard (Card.setShort array offset value)
  | .getInt array offset => .int <$> askCard (·.getInt array offset)
  | .setInt array offset value => .short <$> onCard (Card.setInt array offset value)
  | .isSensitive array => .flag <$> askCard (·.isSensitive array)
  | .assertIntegrity array => (fun _ => .done) <$> onCard (Card.assertIntegrity array)
  | .clearArray array => (fun _ => .done) <$> onCard (Card.clearArray array)
  | .reset => .count <$> onCard Card.clearOnReset
  | .deselect => .count <$> onCard Card.clearOnDeselect
  | .injectPowerLoss bytes => (fun _ => .done) <$> onCard (Card.injectPowerLossAfter bytes)
  | .injectBitFlip array byte mask =>
    (fun _ => .done) <$> onCard (Card.injectBitFlip array byte mask)
  | .image => Act.read fun s => .bytes s.card.image
  | .restore config bytes => (fun _ => .done) <$> onCard (Card.restore config bytes)
  | .makeTemplate bioType limit matcher => makeTemplate bioType limit matcher
  | .templateInit t data =>
    (fun _ => .done) <$> onBench t (Bench.update fun t => t.init data)
  | .templateUpdate t data =>
    (fun _ => .done) <$> onBench t (Bench.onTemplate (Template.update data))
  | .templateFinish t => (fun _ => .done) <$> onBench t (Bench.onTemplate Template.finish)
  | .templateReset t => (fun _ => .done) <$> onBench t (Bench.update Template.reset)
  | .templateInitMatch t candidate => .short <$> onBench t (Bench.initMatch candidate)
  | .templateMatch t candidate => .short <$> onBench t (Bench.matchData candidate)
  | .templateResetTryLimit t limit => (fun _ => .done) <$> onBench t (Bench.resetTryLimit limit)
  | .templateTries t => .code <$> onBench t (.query fun b => b.template.triesRemaining b.card)
  | .templatePublicData t offset size =>
    .bytes <$> onBench t (.query fun b => b.template.publicData offset size)
  | .installObserver => onTelemetry fun t => (.done, t.install)
  | .removeObserver => onTelemetry fun t => (.events t.remove.1, t.remove.2)
  | .totals => onTelemetry fun t => (.totals t.totals, t)
  | .resetTotals => onTelemetry fun t => (.done, t.reset)

/-- Carry a command out and deliver the events. -/
def step [Matcher μ] (c : Command μ) : Act (Session μ) Reply := fun s =>
  let o := perform c s
  { o with state := { o.state with telemetry := o.state.telemetry.receive o.events } }

/-- Carry commands out one after the other, and tell how each ended. -/
def run [Matcher μ] (s : Session μ) : List (Command μ) → List (Except Fault Reply) × Session μ
  | [] => ([], s)
  | c :: more =>
    let o := step c s
    let rest := run o.state more
    (o.result :: rest.1, rest.2)

end Session

end SmartCard
