-- SUMMARY: What commands do behind their checks: each read and each computation with indices, and that requests fail in no other way.
import SmartCard.Proofs.Checks
import SmartCard.Proofs.Session.Effects

/-!
# Behind the checks

Behind its checks a command reads bytes, takes indices as shorts, advances offsets and splits words
into bytes (`Primitive`), all on the strength of what it has checked before. `Command.Issues` tells
which of these a command gets to, and leaves nothing out. A request that is refused is refused by a
check of arguments, or by a primitive that the command issues (`Command.fails_request`). Advancing
and splitting do not fail; they show in what they give, which are the bytes of the words that a
command writes (`Command.issues_split`), and the index that a command returns behind what it has
written (`Session.Sound.issues_index`).
-/

namespace SmartCard

variable {μ α : Type}

/-- A computation that no check guards but those that the command has made before. -/
inductive Primitive where
  /-- Read bytes of an array. -/
  | read (array : ArrayRef) (offset count : Nat)
  /-- Take an index as a short. -/
  | short (index : Nat)
  /-- Advance an offset by the bytes that were written there. -/
  | advance (offset : Int16) (width : Nat)
  /-- Split a word into its low bytes. -/
  | split (width : Nat)
  deriving DecidableEq, Repr

/-- Whether a primitive fails, if at all, with a fault as `P` describes. -/
def Primitive.Fails (P : Fault → Prop) (s : Store) : Primitive → Prop
  | .read array offset count => FailsOnly P (s.read array offset count)
  | .short index => FailsOnly P (Range.shortIndex index)
  | .advance .. | .split _ => True

/-- The index that comes out of a primitive. -/
def Primitive.next? : Primitive → Option Int16
  | .short index => some (Int16.ofNat index)
  | .advance offset width => some (offset + Int16.ofNat width)
  | .read .. | .split _ => none

namespace Command

open Primitive

/-- The primitives that a command issues once its checks have passed. -/
inductive Issues (s : Session μ) : Command μ → Primitive → Prop where
  /- Elements. -/
  | element {array : ArrayRef} {index : Int16} {d : Descriptor} {start : Nat} :
      s.card.memory.slot array index 1 = .ok (d, start) →
      Issues s (.getElement array index) (read array start d.kind.width)
  | elements {array : ArrayRef} {d : Descriptor} :
      s.card.memory.descriptor array = .ok d →
      Issues s (.elements array) (read array 0 d.byteLength)
  | rawBytes {array : ArrayRef} {d : Descriptor} :
      s.card.memory.descriptor array = .ok d →
      Issues s (.rawBytes array) (read array 0 d.byteLength)
  | encoded {array : ArrayRef} {index : Int16} {value : Int32} {d : Descriptor} {start : Nat} :
      s.card.memory.slot array index 1 = .ok (d, start) →
      Issues s (.setElement array index value) (split d.kind.width)
  | allEncoded {array : ArrayRef} {values : List Int32} {d : Descriptor} {start : Nat} :
      s.card.memory.slot array 0 values.length = .ok (d, start) →
      Issues s (.loadElements array values) (split d.kind.width)
  /- Packed values. -/
  | short {array : ArrayRef} {offset : Int16} {start : Nat} :
      Packing.window s.card.memory.store array offset 2 = .ok start →
      Issues s (.getShort array offset) (read array start 2)
  | int {array : ArrayRef} {offset : Int16} {start : Nat} :
      Packing.window s.card.memory.store array offset 4 = .ok start →
      Issues s (.getInt array offset) (read array start 4)
  | shortBytes {array : ArrayRef} {offset value : Int16} {start : Nat} :
      Packing.window s.card.memory.store array offset 2 = .ok start →
      Issues s (.setShort array offset value) (split 2)
  | shortEnd {array : ArrayRef} {offset value : Int16} {start : Nat} :
      Packing.window s.card.memory.store array offset 2 = .ok start →
      Issues s (.setShort array offset value) (advance offset 2)
  | intBytes {array : ArrayRef} {offset : Int16} {value : Int32} {start : Nat} :
      Packing.window s.card.memory.store array offset 4 = .ok start →
      Issues s (.setInt array offset value) (split 4)
  | intEnd {array : ArrayRef} {offset : Int16} {value : Int32} {start : Nat} :
      Packing.window s.card.memory.store array offset 4 = .ok start →
      Issues s (.setInt array offset value) (advance offset 4)
  /- Range operations. -/
  | copySource {p : Range.Protection} {source destination : ArrayRef}
      {sourceOffset sourceLength destinationOffset : Int16} {plan : Range.Copy} :
      Range.Copy.plan s.card.memory.store p source sourceOffset sourceLength destination
        destinationOffset = .ok plan →
      Issues s (.copy p source sourceOffset sourceLength destination destinationOffset)
        (read source plan.sourceByte plan.byteCount)
  | copyEnd {p : Range.Protection} {source destination : ArrayRef}
      {sourceOffset sourceLength destinationOffset : Int16} {plan : Range.Copy} :
      Range.Copy.plan s.card.memory.store p source sourceOffset sourceLength destination
        destinationOffset = .ok plan →
      Issues s (.copy p source sourceOffset sourceLength destination destinationOffset)
        (.short (plan.destinationOffset + plan.elements))
  | fillElement {p : Range.Protection} {array valueArray : ArrayRef}
      {offset length valueOffset : Int16} {plan : Range.Fill} :
      Range.Fill.plan s.card.memory.store p array offset length valueArray valueOffset =
        .ok plan →
      Issues s (.fill p array offset length valueArray valueOffset)
        (read valueArray (plan.valueOffset * plan.width) plan.width)
  | fillEnd {p : Range.Protection} {array valueArray : ArrayRef}
      {offset length valueOffset : Int16} {plan : Range.Fill} :
      Range.Fill.plan s.card.memory.store p array offset length valueArray valueOffset =
        .ok plan →
      Issues s (.fill p array offset length valueArray valueOffset)
        (.short (plan.offset + plan.count))
  | compareLeft {left right : ArrayRef} {leftOffset rightOffset length : Int16}
      {x y : Range.Operand} {leftFrom rightFrom count : Nat} :
      Range.Comparison s.card.memory.store left leftOffset right rightOffset length x y leftFrom
        rightFrom count →
      Issues s (.compare left leftOffset right rightOffset length)
        (read left (leftFrom * x.width) (count * x.width))
  | compareRight {left right : ArrayRef} {leftOffset rightOffset length : Int16}
      {x y : Range.Operand} {leftFrom rightFrom count : Nat} :
      Range.Comparison s.card.memory.store left leftOffset right rightOffset length x y leftFrom
        rightFrom count →
      Issues s (.compare left leftOffset right rightOffset length)
        (read right (rightFrom * x.width) (count * x.width))
  | needleElement {array valueArray : ArrayRef} {offset valueOffset : Int16}
      {x y : Range.Operand} {start value : Nat} :
      Range.Search s.card.memory.store array offset valueArray valueOffset x y start value →
      y.kind = x.kind → Range.checkRange .value y value 1 = .ok () →
      Issues s (.find array offset valueArray valueOffset)
        (read y.array (value * x.width) x.width)
  | needleBytes {array valueArray : ArrayRef} {offset valueOffset : Int16}
      {x y : Range.Operand} {start value : Nat} :
      Range.Search s.card.memory.store array offset valueArray valueOffset x y start value →
      y.kind ≠ x.kind → y.kind = .byte → Range.checkRange .value y value x.width = .ok () →
      Issues s (.find array offset valueArray valueOffset) (read y.array value x.width)
  | searched {array valueArray : ArrayRef} {offset valueOffset : Int16} {x y : Range.Operand}
      {start value : Nat} {target : List UInt8} :
      Range.Search s.card.memory.store array offset valueArray valueOffset x y start value →
      Range.needle s.card.memory.store x y value = .ok target →
      Issues s (.find array offset valueArray valueOffset)
        (read array (start * x.width) ((x.length - start) * x.width))
  | foundAt {array valueArray : ArrayRef} {offset valueOffset : Int16} {x y : Range.Operand}
      {start value i : Nat} {target bytes : List UInt8} :
      Range.Search s.card.memory.store array offset valueArray valueOffset x y start value →
      s.card.memory.store.read array (start * x.width) ((x.length - start) * x.width) = .ok bytes →
      (words x.width bytes).findIdx? (· == BigEndian.assemble target) = some i →
      Issues s (.find array offset valueArray valueOffset) (.short (start + i))
  /- Try counters, of two bytes: the limit and the tries that are left. -/
  | tries {position : Nat} {t : Template μ} :
      s.templates[position]? = some t → Issues s (.templateTries position) (read t.counter 1 1)
  | opening {position i : Nat} {candidate : List UInt8} {t : Template μ} :
      s.templates[position]? = some t → i < 2 →
      Issues s (.templateInitMatch position candidate) (read t.counter i 1)
  | continuing {position i : Nat} {candidate : List UInt8} {t : Template μ} :
      s.templates[position]? = some t → i < 2 →
      Issues s (.templateMatch position candidate) (read t.counter i 1)

/-! ## Words -/

/-- The words whose bytes a command writes. -/
def writtenWords : Command μ → List UInt32
  | .setElement _ _ value => [value.toUInt32]
  | .loadElements _ values => values.map Int32.toUInt32
  | .setShort _ _ value => [value.toUInt16.toUInt32]
  | .setInt _ _ value => [value.toUInt32]
  | _ => []

open AsksFor in
/-- A command that writes words writes nothing else, and it issues the primitive that splits them.
-/
theorem issues_split [Matcher μ] {s : Session μ} {command : Command μ}
    (hwords : command.writtenWords ≠ []) :
    AsksFor (fun ops => ∃ w width, ops = [.write w] ∧ command.Issues s (.split width) ∧
      w.bytes = command.writtenWords.flatMap fun word => BigEndian.split word width)
      (command.request s) := by
  cases command
  case setElement =>
    exact checked fun a ha => made ⟨_, _, rfl, .encoded ha, (List.flatMap_singleton ..).symm⟩
  case loadElements array values =>
    refine either (refused _) (checked fun a ha => ?_)
    have hvalues : values.isEmpty = false := by
      simpa [writtenWords] using hwords
    simp only [hvalues]
    refine made ⟨_, _, rfl, .allEncoded ha, ?_⟩
    rw [writtenWords, List.flatMap_map]
    rfl
  case setShort =>
    exact checked fun _ ha => made ⟨_, _, rfl, .shortBytes ha, (List.flatMap_singleton ..).symm⟩
  case setInt =>
    exact checked fun _ ha => made ⟨_, _, rfl, .intBytes ha, (List.flatMap_singleton ..).symm⟩
  all_goals exact absurd rfl hwords

end Command

/-! ## Refused requests -/

section Requests

variable {P : Fault → Prop} {s : Session μ} {position : Nat}

theorem fails_settling (hP : ∀ e : Fault, e.IsCheck → P e) {m : Memory} {counter : ArrayRef}
    (hread : ∀ i < 2, FailsOnly P (m.store.read counter i 1)) (score : Int16) :
    FailsOnly P (Command.settling m counter score) := by
  unfold Command.settling
  split
  next e he => exact .error (hP e (checks_ofScore score e he))
  · exact .ok _
  · exact ((hread 0 (by decide)).map _).bind fun _ _ => .ok _
  · exact ((hread 1 (by decide)).map _).bind fun _ _ => .ok _

theorem fails_onTemplate (hP : ∀ e : Fault, e.IsCheck → P e)
    {f : Template μ → Except Fault (List Operation)}
    (hf : ∀ t, s.templates[position]? = some t → FailsOnly P (f t)) :
    FailsOnly P (Command.onTemplate s position f) := by
  unfold Command.onTemplate
  split
  · exact .error (hP _ ⟨⟨rfl, rfl⟩, rfl⟩)
  next t ht => exact hf t ht

/-- Commands that ask the card are refused if the card has no answer. -/
theorem fails_askCard {f : Card → Except Fault α} (hf : FailsOnly P (f s.card))
    (reply : α → Reply) :
    FailsOnly P (((reply <$> (Session.askCard f : Act (Session μ) α)).exec s).1.map
      fun _ => ([] : List Operation)) := by
  rw [Act.exec_map]
  exact (hf.map reply).map _

theorem fails_onCard {x : Act Card α} (hx : FailsOnly P (x.exec s.card).1) (reply : α → Reply) :
    FailsOnly P (((reply <$> (Session.onCard x : Act (Session μ) α)).exec s).1.map
      fun _ => ([] : List Operation)) := by
  rw [Act.exec_map]
  exact (hx.map reply).map _

theorem fails_onBench (hP : ∀ e : Fault, e.IsCheck → P e) {x : Act (Bench μ) α}
    (hx : ∀ t, s.templates[position]? = some t → FailsOnly P (x.exec ⟨s.card, t⟩).1)
    (reply : α → Reply) :
    FailsOnly P (((reply <$> Session.onBench position x).exec s).1.map
      fun _ => ([] : List Operation)) := by
  rw [Act.exec_map, Session.exec_onBench]
  rcases ht : s.templates[position]? with _ | t
  · exact .error (hP _ ⟨⟨rfl, rfl⟩, rfl⟩)
  · exact ((hx t ht).map reply).map _

theorem fails_reported {f : Memory → Except Fault (α × Nat)} (hf : FailsOnly P (f s.card.memory))
    (operation : RangeOperation) (reply : α → Reply) :
    FailsOnly P (((reply <$> (Session.onCard (Card.onMemory (Range.reported operation (.query f))) :
      Act (Session μ) α)).exec s).1.map fun _ => ([] : List Operation)) := by
  refine fails_onCard (fun e he => ?_) reply
  have heffect := congrArg Prod.fst (Range.effect_reported operation (.query f) s.card.memory)
  change ((Range.reported operation (.query f)).exec s.card.memory).1.map (fun _ => ()) =
    (f s.card.memory).map fun _ => () at heffect
  change ((Range.reported operation (.query f)).exec s.card.memory).1 = .error e at he
  rw [he] at heffect
  rcases hresult : f s.card.memory with e' | _
  · rw [hresult] at heffect
    cases heffect
    exact hf _ hresult
  · rw [hresult] at heffect
    cases heffect

/-- A request fails with the fault of a check, or with that of a primitive that the command issues.
-/
theorem Command.fails_request [Matcher μ] (hP : ∀ e : Fault, e.IsCheck → P e) (command : Command μ)
    (hrestore : command.isRestore = false)
    (hissued : ∀ x, command.Issues s x → x.Fails P s.card.memory.store) :
    FailsOnly P (command.request s) := by
  have hchecks : ∀ {β : Type} {x : Except Fault β}, Checks x → FailsOnly P x := fun h => h.mono hP
  cases command
  case restore => cases hrestore
  case begin => exact .ok _
  case commit => exact .ok _
  case abort => exact .ok _
  case reset => exact .ok _
  case deselect => exact .ok _
  case injectPowerLoss => exact .ok _
  case injectBitFlip => exact .ok _
  case makePersistent => exact (hchecks (checks_arrayLength _ _)).bind fun _ _ => .ok _
  case makeTransient kind length event =>
    unfold request
    dsimp only
    split
    · exact hchecks (checks_error rfl rfl rfl)
    · refine .ite (fun _ => ?_) fun _ => hchecks (checks_error rfl rfl rfl)
      exact (hchecks (checks_arrayLength _ _)).bind fun _ _ => .ok _
  case makeSensitive => exact (hchecks (checks_descriptorFor _ _ _ _)).bind fun _ _ => .ok _
  case setElement => exact (hchecks (checks_slot _ _ _ _)).bind fun _ _ => .ok _
  case loadElements array values =>
    refine .ite (fun _ => hchecks (checks_error rfl rfl rfl)) fun _ => ?_
    exact (hchecks (checks_slot _ _ _ _)).bind fun _ _ => .ok _
  case setShort => exact (hchecks (checks_window _ _ _ _)).bind fun _ _ => .ok _
  case setInt => exact (hchecks (checks_window _ _ _ _)).bind fun _ _ => .ok _
  case clearArray => exact (hchecks (checks_sensitiveCell _ _)).bind fun _ _ => .ok _
  case copy =>
    exact (hchecks (checks_copyPlan _ _ _ _ _ _ _)).bind fun _ hplan =>
      FailsOnly.bind (hissued _ (.copySource hplan)) fun _ _ => .ok _
  case fill =>
    exact (hchecks (checks_fillPlan _ _ _ _ _ _ _)).bind fun _ hplan =>
      FailsOnly.bind (hissued _ (.fillElement hplan)) fun _ _ => .ok _
  case makeTemplate =>
    exact (hchecks (checks_checkLimit _)).bind fun _ _ =>
      (hchecks (checks_freeRef _)).bind fun _ _ => .ok _
  case templateInitMatch =>
    refine fails_onTemplate hP fun t ht => ?_
    refine (hchecks (checks_requireInitialized t)).bind fun _ _ => ?_
    refine FailsOnly.bind (FailsOnly.map (hissued _ (.opening ht (by decide))) _) fun _ _ => ?_
    refine .ite (fun _ => .ok _) fun _ => ?_
    exact fails_settling hP (fun i hi => hissued _ (.opening ht hi)) _
  case templateMatch =>
    refine fails_onTemplate hP fun t ht => .ite (fun _ => ?_) fun _ => ?_
    · exact fails_settling hP (fun i hi => hissued _ (.continuing ht hi)) _
    · exact hchecks (checks_error rfl rfl rfl)
  case templateResetTryLimit =>
    exact fails_onTemplate hP fun _ _ => (hchecks (checks_checkLimit _)).bind fun _ _ => .ok _
  case descriptor => exact fails_askCard (hchecks (checks_descriptor _ _ _)) _
  case isTransient => exact fails_askCard (hchecks ((checks_descriptor _ _ _).map _)) _
  case availableMemory => exact fails_askCard (hchecks ((checks_available _ _).map _)) _
  case availableMemoryExtended => exact fails_askCard (hchecks (checks_available _ _)) _
  case isSensitive => exact fails_askCard (hchecks ((checks_descriptor _ _ _).map _)) _
  case assertIntegrity array => exact fails_onCard (hchecks (checks_check array s.card.memory)) _
  case getElement =>
    exact fails_askCard (fails_element hP fun hslot => hissued _ (.element hslot)) _
  case elements => exact fails_askCard (fails_elements hP fun hd => hissued _ (.elements hd)) _
  case rawBytes => exact fails_askCard (fails_payload hP fun hd => hissued _ (.rawBytes hd)) _
  case getShort =>
    exact fails_askCard ((fails_readWord hP fun hstart => hissued _ (.short hstart)).map _) _
  case getInt =>
    exact fails_askCard ((fails_readWord hP fun hstart => hissued _ (.int hstart)).map _) _
  case compare =>
    refine fails_reported (fails_compared hP fun h => ⟨?_, ?_⟩) _ _
    · exact hissued _ (.compareLeft h)
    · exact hissued _ (.compareRight h)
  case find =>
    refine fails_reported (fails_found hP (fun h => ?_) (fun h htarget => ?_)
      fun h hread hi => ?_) _ _
    · exact fails_needle hP (fun hkind hrange => hissued _ (.needleElement h hkind hrange))
        fun hkind hbyte hrange => hissued _ (.needleBytes h hkind hbyte hrange)
    · exact hissued _ (.searched h htarget)
    · exact hissued _ (.foundAt h hread hi)
  case templateInit => exact fails_onBench hP (fun _ _ => .ok _) _
  case templateReset => exact fails_onBench hP (fun _ _ => .ok _) _
  case templateUpdate data => exact fails_onBench hP (fun t _ => hchecks (checks_update data t)) _
  case templateFinish => exact fails_onBench hP (fun t _ => hchecks (checks_finish t)) _
  case templateTries =>
    refine fails_onBench hP (fun t ht => ?_) _
    exact FailsOnly.map (hissued _ (.tries ht)) _
  case templatePublicData =>
    refine fails_onBench hP (fun t _ => ?_) _
    exact hchecks (checks_publicData t _ _)
  case capacities => exact .ok _
  case image => exact .ok _
  case installObserver => exact .ok _
  case removeObserver => exact .ok _
  case totals => exact .ok _
  case resetTotals => exact .ok _

end Requests

end SmartCard
