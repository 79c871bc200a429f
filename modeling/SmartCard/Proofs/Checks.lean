-- SUMMARY: The faults that checks of arguments report, and computations that fail with faults of one kind only.
import SmartCard.Proofs.Store.Updates
import SmartCard.Session

/-!
# Checks

A command checks its arguments before it reads or writes. A check reports neither a loss of power
nor a want of room, nor a range that only code behind the checks can find to be out of bounds
(`Fault.IsCheck`). The faults that a compound check can end with are those of its parts
(`FailsOnly`). Where it reads on the strength of what it has checked before, the faults of the
reading are a hypothesis, so that nothing is presupposed about the store here.
-/

namespace SmartCard

variable {α β μ : Type}

/-- Whether a fault is reported by code that lies behind all checks: a range of bytes that is not in
its payload, or an index that is no short. -/
def Fault.isLate : Fault → Bool
  | .bytesOutside .. | .indexTooLarge _ => true
  | _ => false

/-- A fault as the checks of arguments report them. -/
structure Fault.IsCheck (e : Fault) : Prop where
  refusal : e.IsRefusal
  timely : e.isLate = false

/-- Whether a computation fails, if at all, with a fault as `P` describes. -/
def FailsOnly (P : Fault → Prop) (x : Except Fault α) : Prop := ∀ e, x = .error e → P e

namespace FailsOnly

variable {P Q : Fault → Prop} {x : Except Fault α}

theorem ok (a : α) : FailsOnly P (.ok a) := fun _ h => nomatch h

theorem error {e : Fault} (h : P e) : FailsOnly P (.error e : Except Fault α) := by
  rintro _ ⟨⟩
  exact h

theorem mono (hx : FailsOnly P x) (h : ∀ e, P e → Q e) : FailsOnly Q x := fun e he => h e (hx e he)

/-- What comes behind a check may rely on what the check has found. -/
theorem bind {f : α → Except Fault β} (hx : FailsOnly P x)
    (hf : ∀ a, x = .ok a → FailsOnly P (f a)) : FailsOnly P (x >>= f) := by
  rcases x with e | a
  · exact error (hx e rfl)
  · exact hf a rfl

theorem map (hx : FailsOnly P x) (f : α → β) : FailsOnly P (x.map f) := by
  rcases x with e | a
  · exact error (hx e rfl)
  · exact ok (f a)

theorem ite {p : Prop} [Decidable p] {y : Except Fault α} (hx : p → FailsOnly P x)
    (hy : ¬p → FailsOnly P y) : FailsOnly P (if p then x else y) := by
  split
  next h => exact hx h
  next h => exact hy h

end FailsOnly

/-- A check of arguments, which reports nothing else. -/
def Checks (x : Except Fault α) : Prop := FailsOnly Fault.IsCheck x

theorem checks_ok (a : α) : Checks (.ok a : Except Fault α) := FailsOnly.ok a

theorem checks_error {e : Fault} (hpower : e.isPowerLoss = false) (hroom : e.isBufferFull = false)
    (hlate : e.isLate = false) : Checks (.error e : Except Fault α) :=
  FailsOnly.error ⟨⟨hpower, hroom⟩, hlate⟩

theorem Checks.bind {x : Except Fault α} {f : α → Except Fault β} (hx : Checks x)
    (hf : ∀ a, Checks (f a)) : Checks (x >>= f) := FailsOnly.bind hx fun a _ => hf a

theorem Checks.map {x : Except Fault α} (hx : Checks x) (f : α → β) : Checks (x.map f) :=
  FailsOnly.map hx f

/-! ## Looking arrays up -/

theorem checks_cell (s : Store) (origin : Origin) (array : ArrayRef) :
    Checks (s.cell origin array) := by
  unfold Store.cell
  split
  · exact checks_error rfl rfl rfl
  · split
    · exact checks_ok _
    · exact checks_error rfl rfl rfl

theorem checks_descriptor (s : Store) (origin : Origin) (array : ArrayRef) :
    Checks (s.descriptor origin array) := (checks_cell s origin array).map _

theorem checks_flipBits (s : Store) (array : ArrayRef) (byte : Nat) (mask : UInt8) :
    Checks (s.flipBits array byte mask) := by
  refine (checks_cell s .store array).bind fun cell => ?_
  split
  · exact checks_ok _
  · exact checks_error rfl rfl rfl

theorem checks_slot (m : Memory) (array : ArrayRef) (index : Int16) (count : Nat) :
    Checks (m.slot array index count) := by
  refine (checks_descriptor m.store .store array).bind fun d => ?_
  split
  · split
    · exact checks_ok _
    · exact checks_error rfl rfl rfl
  · exact checks_error rfl rfl rfl

theorem checks_available (m : Memory) (memoryType : UInt8) : Checks (m.available memoryType) := by
  unfold Memory.available
  split
  · exact checks_ok _
  · exact checks_error rfl rfl rfl

theorem checks_window (s : Store) (array : ArrayRef) (offset : Int16) (width : Nat) :
    Checks (Packing.window s array offset width) := by
  refine (checks_descriptor s .array array).bind fun d => ?_
  split
  · split
    · split
      · exact checks_ok _
      · exact checks_error rfl rfl rfl
    · exact checks_error rfl rfl rfl
  · exact checks_error rfl rfl rfl

theorem checks_sensitiveCell (s : Store) (array : ArrayRef) :
    Checks (Integrity.sensitiveCell s array) := by
  refine (checks_cell s .sensitive array).bind fun cell => ?_
  split
  · exact checks_ok _
  · exact checks_error rfl rfl rfl

theorem checks_check (array : ArrayRef) (m : Memory) :
    Checks ((Integrity.check array).exec m).1 := by
  rw [Integrity.check, Act.exec_bind, Act.exec_query]
  rcases hcell : Integrity.sensitiveCell m.store array with e | cell
  · exact FailsOnly.error (checks_sensitiveCell m.store array e hcell)
  · dsimp only
    rw [Act.exec_ite]
    split
    · exact checks_ok ()
    · exact checks_error rfl rfl rfl

/-! ## Making arrays and templates -/

theorem checks_freeRef (s : Store) : Checks s.freeRef := by
  unfold Store.freeRef
  split
  · exact checks_error rfl rfl rfl
  · split
    · exact checks_error rfl rfl rfl
    · exact checks_ok _

theorem checks_allocate (s : Store) (d : Descriptor) : Checks (s.allocate d) := by
  unfold Store.allocate
  split
  · exact checks_error rfl rfl rfl
  · split
    next e he => exact FailsOnly.error (checks_freeRef s e he)
    next =>
      dsimp only
      split
      · exact checks_error rfl rfl rfl
      · exact checks_ok _

theorem checks_arrayLength (origin : Origin) (length : Int16) :
    Checks (Memory.arrayLength origin length) := by
  unfold Memory.arrayLength
  split
  · exact checks_ok _
  · exact checks_error rfl rfl rfl

theorem checks_descriptorFor (supported : Bool) (kind : Kind) (memoryType : UInt8)
    (length : Int16) : Checks (Integrity.descriptorFor supported kind memoryType length) := by
  unfold Integrity.descriptorFor
  split
  · exact checks_error rfl rfl rfl
  · split
    · exact checks_error rfl rfl rfl
    · split
      · exact checks_error rfl rfl rfl
      · exact (checks_arrayLength .sensitive length).bind fun _ => checks_ok _

theorem checks_checkLimit (limit : UInt8) : Checks (TryCounter.checkLimit limit) := by
  unfold TryCounter.checkLimit
  split
  · exact checks_error rfl rfl rfl
  · exact checks_ok ()

theorem checks_requireInitialized (t : Template μ) : Checks t.requireInitialized := by
  unfold Template.requireInitialized
  split
  · exact checks_ok ()
  · exact checks_error rfl rfl rfl

theorem checks_ofScore (score : Int16) : Checks (MatchOutcome.ofScore score) := by
  unfold MatchOutcome.ofScore
  split
  · exact checks_ok _
  · split
    · exact checks_ok _
    · split
      · exact checks_ok _
      · exact checks_error rfl rfl rfl

theorem checks_publicData [Matcher μ] (t : Template μ) (offset size : Nat) :
    Checks (t.publicData offset size) := by
  refine (checks_requireInitialized t).bind fun _ => ?_
  dsimp only
  split
  · exact checks_ok _
  · exact checks_error rfl rfl rfl

theorem checks_update (data : List UInt8) (t : Template μ) :
    Checks ((Template.update data).exec t).1 := by
  rw [Template.update, Act.exec_step]
  rcases t.enrolment with _ | given
  · exact checks_error rfl rfl rfl
  · exact checks_ok ()

theorem checks_finish (t : Template μ) : Checks (Template.finish.exec t).1 := by
  rw [Template.finish, Act.exec_bind_of_ok (Act.exec_read _ _)]
  rcases t.enrolment with _ | data
  · exact checks_error rfl rfl rfl
  · dsimp only
    rw [Act.exec_bind_of_ok (Act.exec_modify _ _), Act.exec_ite]
    split
    · exact checks_error rfl rfl rfl
    · exact checks_ok ()

/-! ## Operands and ranges -/

theorem checks_operand (s : Store) (array : ArrayRef) : Checks (Range.operand s array) := by
  refine (checks_descriptor s .array array).bind fun d => ?_
  split
  · exact checks_ok _
  · exact checks_error rfl rfl rfl

theorem checks_operands (s : Store) (first second : ArrayRef) :
    Checks (Range.operands s first second) := by
  unfold Range.operands
  split
  · exact checks_error rfl rfl rfl
  · split
    · exact checks_error rfl rfl rfl
    · exact (checks_operand s first).bind fun x => (checks_operand s second).bind fun y =>
        checks_ok _

theorem checks_natural (argument : Argument) (value : Int16) :
    Checks (Range.natural argument value) := by
  unfold Range.natural
  split
  · exact checks_ok _
  · exact checks_error rfl rfl rfl

theorem checks_checkRange (role : RangeRole) (x : Range.Operand) (offset count : Nat) :
    Checks (Range.checkRange role x offset count) := by
  unfold Range.checkRange
  split
  · exact checks_ok _
  · exact checks_error rfl rfl rfl

theorem checks_checkKinds (x y : Range.Operand) : Checks (Range.checkKinds x y) := by
  unfold Range.checkKinds
  split
  · exact checks_ok _
  · exact checks_error rfl rfl rfl

theorem checks_repackedCount (source destination : Kind) (count : Nat) :
    Checks (Range.repackedCount source destination count) := by
  unfold Range.repackedCount
  split
  · split
    · exact checks_ok _
    · exact checks_error rfl rfl rfl
  · exact checks_ok _

theorem checks_checkProtection (p : Range.Protection) (x : Range.Operand) :
    Checks (Range.checkProtection p x) := by
  unfold Range.checkProtection
  split
  · exact checks_ok _
  · split
    · exact checks_error rfl rfl rfl
    · exact checks_ok _

theorem checks_copyPlan (s : Store) (p : Range.Protection) (source : ArrayRef)
    (sourceOffset sourceLength : Int16) (destination : ArrayRef) (destinationOffset : Int16) :
    Checks
      (Range.Copy.plan s p source sourceOffset sourceLength destination destinationOffset) := by
  refine (checks_operands s source destination).bind fun xy => ?_
  refine (checks_natural .sourceOffset sourceOffset).bind fun start => ?_
  refine (checks_natural .sourceLength sourceLength).bind fun count => ?_
  refine (checks_natural .destinationOffset destinationOffset).bind fun target => ?_
  refine (checks_checkRange .source xy.1 start count).bind fun _ => ?_
  refine (checks_repackedCount xy.1.kind xy.2.kind count).bind fun elements => ?_
  refine (checks_checkRange .destination xy.2 target elements).bind fun _ => ?_
  exact (checks_checkProtection p xy.2).bind fun _ => checks_ok _

theorem checks_fillPlan (s : Store) (p : Range.Protection) (array : ArrayRef)
    (offset length : Int16) (valueArray : ArrayRef) (valueOffset : Int16) :
    Checks (Range.Fill.plan s p array offset length valueArray valueOffset) := by
  refine (checks_operands s array valueArray).bind fun xy => ?_
  refine (checks_checkKinds xy.1 xy.2).bind fun _ => ?_
  refine (checks_natural .fillOffset offset).bind fun start => ?_
  refine (checks_natural .fillLength length).bind fun count => ?_
  refine (checks_natural .valueOffset valueOffset).bind fun value => ?_
  refine (checks_checkRange .fill xy.1 start count).bind fun _ => ?_
  refine (checks_checkRange .value xy.2 value 1).bind fun _ => ?_
  exact (checks_checkProtection p xy.1).bind fun _ => checks_ok _

/-! ## Reading behind the checks -/

namespace Range

/-- The checks of a comparison have passed. -/
structure Comparison (s : Store) (left : ArrayRef) (leftOffset : Int16) (right : ArrayRef)
    (rightOffset length : Int16) (x y : Operand) (leftFrom rightFrom count : Nat) : Prop where
  operands : operands s left right = .ok (x, y)
  kinds : checkKinds x y = .ok ()
  atLeft : natural .sourceOffset leftOffset = .ok leftFrom
  atRight : natural .destinationOffset rightOffset = .ok rightFrom
  counted : natural .length length = .ok count
  inLeft : checkRange .source x leftFrom count = .ok ()
  inRight : checkRange .destination y rightFrom count = .ok ()

/-- The checks of a search have passed, but for those of the value to look for. -/
structure Search (s : Store) (array : ArrayRef) (offset : Int16) (valueArray : ArrayRef)
    (valueOffset : Int16) (x y : Operand) (start value : Nat) : Prop where
  operands : operands s array valueArray = .ok (x, y)
  atStart : natural .searchOffset offset = .ok start
  atValue : natural .valueOffset valueOffset = .ok value
  inArray : checkRange .search x start 0 = .ok ()

end Range

section Reading

variable {P : Fault → Prop} (hP : ∀ e : Fault, e.IsCheck → P e)

include hP

theorem fails_element {m : Memory} {array : ArrayRef} {index : Int16}
    (hread : ∀ {d start}, m.slot array index 1 = .ok (d, start) →
      FailsOnly P (m.store.read array start d.kind.width)) : FailsOnly P (m.element array index) :=
  ((checks_slot m array index 1).mono hP).bind fun _ hslot =>
    (hread hslot).bind fun _ _ => .ok _

theorem fails_elements {m : Memory} {array : ArrayRef}
    (hread : ∀ {d}, m.descriptor array = .ok d →
      FailsOnly P (m.store.read array 0 d.byteLength)) : FailsOnly P (m.elements array) :=
  ((checks_descriptor m.store .store array).mono hP).bind fun _ hd =>
    (hread hd).bind fun _ _ => .ok _

theorem fails_payload {m : Memory} {array : ArrayRef}
    (hread : ∀ {d}, m.descriptor array = .ok d →
      FailsOnly P (m.store.read array 0 d.byteLength)) : FailsOnly P (m.payload array) :=
  ((checks_descriptor m.store .store array).mono hP).bind fun _ hd => hread hd

theorem fails_readWord {s : Store} {array : ArrayRef} {offset : Int16} {width : Nat}
    (hread : ∀ {start}, Packing.window s array offset width = .ok start →
      FailsOnly P (s.read array start width)) :
    FailsOnly P (Packing.readWord s array offset width) :=
  ((checks_window s array offset width).mono hP).bind fun _ hstart =>
    (hread hstart).bind fun _ _ => .ok _

theorem fails_compared {s : Store} {left right : ArrayRef} {leftOffset rightOffset length : Int16}
    (hread : ∀ {x y leftFrom rightFrom count},
      Range.Comparison s left leftOffset right rightOffset length x y leftFrom rightFrom count →
        FailsOnly P (s.read left (leftFrom * x.width) (count * x.width)) ∧
        FailsOnly P (s.read right (rightFrom * x.width) (count * x.width))) :
    FailsOnly P (Range.compared s left leftOffset right rightOffset length) := by
  refine ((checks_operands s left right).mono hP).bind fun (x, y) hoperands => ?_
  refine ((checks_checkKinds x y).mono hP).bind fun _ hkinds => ?_
  refine ((checks_natural .sourceOffset leftOffset).mono hP).bind fun leftFrom hleft => ?_
  refine ((checks_natural .destinationOffset rightOffset).mono hP).bind fun rightFrom hright => ?_
  refine ((checks_natural .length length).mono hP).bind fun count hcount => ?_
  refine ((checks_checkRange .source x leftFrom count).mono hP).bind fun _ hinLeft => ?_
  refine ((checks_checkRange .destination y rightFrom count).mono hP).bind fun _ hinRight => ?_
  obtain ⟨hreadLeft, hreadRight⟩ :=
    hread ⟨hoperands, hkinds, hleft, hright, hcount, hinLeft, hinRight⟩
  exact hreadLeft.bind fun _ _ => hreadRight.bind fun _ _ => .ok _

theorem fails_needle {s : Store} {x y : Range.Operand} {offset : Nat}
    (hsame : y.kind = x.kind → Range.checkRange .value y offset 1 = .ok () →
      FailsOnly P (s.read y.array (offset * x.width) x.width))
    (hbytes : y.kind ≠ x.kind → y.kind = .byte → Range.checkRange .value y offset x.width = .ok () →
      FailsOnly P (s.read y.array offset x.width)) : FailsOnly P (Range.needle s x y offset) := by
  refine .ite (fun hkind => ?_) fun hkind => .ite (fun hbyte => ?_) fun _ => ?_
  · exact ((checks_checkRange .value y offset 1).mono hP).bind fun _ hrange => hsame hkind hrange
  · exact ((checks_checkRange .value y offset x.width).mono hP).bind fun _ hrange =>
      hbytes hkind hbyte hrange
  · exact .error (hP _ ⟨⟨rfl, rfl⟩, rfl⟩)

theorem fails_found {s : Store} {array valueArray : ArrayRef} {offset valueOffset : Int16}
    (hneedle : ∀ {x y start value},
      Range.Search s array offset valueArray valueOffset x y start value →
        FailsOnly P (Range.needle s x y value))
    (hread : ∀ {x y start value target},
      Range.Search s array offset valueArray valueOffset x y start value →
        Range.needle s x y value = .ok target →
          FailsOnly P (s.read array (start * x.width) ((x.length - start) * x.width)))
    (hindex : ∀ {x y start value target bytes i},
      Range.Search s array offset valueArray valueOffset x y start value →
        s.read array (start * x.width) ((x.length - start) * x.width) = .ok bytes →
          (words x.width bytes).findIdx? (· == BigEndian.assemble target) = some i →
            FailsOnly P (Range.shortIndex (start + i))) :
    FailsOnly P (Range.found s array offset valueArray valueOffset) := by
  refine ((checks_operands s array valueArray).mono hP).bind fun (x, y) hoperands => ?_
  refine ((checks_natural .searchOffset offset).mono hP).bind fun start hstart => ?_
  refine ((checks_natural .valueOffset valueOffset).mono hP).bind fun value hvalue => ?_
  refine ((checks_checkRange .search x start 0).mono hP).bind fun _ hrange => ?_
  have hsearch : Range.Search s array offset valueArray valueOffset x y start value :=
    ⟨hoperands, hstart, hvalue, hrange⟩
  refine (hneedle hsearch).bind fun target htarget => ?_
  refine (hread hsearch htarget).bind fun bytes hbytes => ?_
  split
  next i hi => exact (hindex hsearch hbytes hi).map _
  next => exact .ok _

end Reading

end SmartCard
