-- SUMMARY: What each command reports: an account of what it does, and for range operations how many elements they handled.
import SmartCard.Proofs.Session.Capacity
import SmartCard.Proofs.Session.Orderly
import SmartCard.Proofs.Session.Rejections
import SmartCard.Proofs.Session.Runs

/-!
# Reports of commands

A command that does not replace the card reports an account of what it does to the transaction. A
range operation then reports on itself: that it failed, or else how many elements it handled, which
its arguments and its reply determine (`Command.handled`).
-/

namespace SmartCard

variable {μ α : Type} {c : Config} {m : Memory} {operation : RangeOperation}

/-! ## Elements handled -/

namespace Memory

/-- Bytes taken by one element of an array. -/
def widthOf (m : Memory) (array : ArrayRef) : Nat :=
  ((m.store.descriptor? array).map fun d => d.kind.width).getD 0

/-- The elements of an array. -/
def lengthOf (m : Memory) (array : ArrayRef) : Nat :=
  ((m.store.descriptor? array).map Descriptor.length).getD 0

/-- So many elements of an array from an offset on, as unsigned words. -/
def wordsAt (m : Memory) (array : ArrayRef) (offset count : Int16) : List UInt32 :=
  match m.store.table.find? array with
  | none => []
  | some cell =>
    let width := cell.descriptor.kind.width
    words width
      ((cell.payload.drop (offset.toInt.toNat * width)).take (count.toInt.toNat * width))

end Memory

namespace Command

/-- The entry point of a range operation. -/
def operation? : Command μ → Option RangeOperation
  | .copy .atomic .. => some .copy
  | .copy .nonAtomic .. => some .copyNonAtomic
  | .fill .atomic .. => some .fill
  | .fill .nonAtomic .. => some .fillNonAtomic
  | .compare .. => some .compare
  | .find .. => some .find
  | _ => none

/-- How many elements a range operation handles that ends with a reply. Copies and fills count the
elements of the destination that they write. A comparison looks at the elements up to the first that
differ, a search at those up to the one it finds. -/
def handled (m : Memory) : Command μ → Reply → Nat
  | .copy _ source _ sourceLength destination _, _ =>
    sourceLength.toInt.toNat * m.widthOf source / m.widthOf destination
  | .fill _ _ _ length _ _, _ => length.toInt.toNat
  | .compare left leftOffset right rightOffset length, _ =>
    let pairs := (m.wordsAt left leftOffset length).zip (m.wordsAt right rightOffset length)
    min ((pairs.takeWhile fun pair => pair.1 == pair.2).length + 1) length.toInt.toNat
  | .find array offset _ _, .short i =>
    if i = -1 then m.lengthOf array - offset.toInt.toNat
    else (i.toInt - offset.toInt).toNat + 1
  | _, _ => 0

/-- What a command reports on itself after all else. -/
def report (m : Memory) (command : Command μ) (result : Except Fault Reply) : List Event :=
  match command.operation?, result with
  | none, _ => []
  | some operation, .ok reply => [.rangeDone operation (command.handled m reply)]
  | some operation, .error _ => [.rangeFailed operation]

end Command

namespace Range

theorem index?_eq_some {value : Int16} {n : Nat} (h : index? value = some n) :
    n = value.toInt.toNat ∧ 0 ≤ value.toInt := by
  unfold index? at h
  split at h
  · cases h
  next hneg =>
    cases h
    exact ⟨rfl, Int.not_lt.mp fun hlt => hneg (Int16.lt_iff_toInt_lt.mpr hlt)⟩

theorem descriptor?_of_operand {s : Store} {array : ArrayRef} {x : Operand}
    (hx : operand s array = .ok x) : s.descriptor? array = some x.descriptor ∧ x.array = array := by
  obtain ⟨d, hd, _, rfl⟩ := operand_eq_ok_iff.mp hx
  obtain ⟨cell, hcell, rfl⟩ := Store.descriptor_eq_ok_iff.mp hd
  exact ⟨Table.descriptor?_eq_some_iff.mpr ⟨cell, (Store.cell_eq_ok_iff.mp hcell).2, rfl⟩, rfl⟩

theorem widthOf_operand {array : ArrayRef} {x : Operand} (hx : operand m.store array = .ok x) :
    m.widthOf array = x.width := by
  rw [Memory.widthOf, (descriptor?_of_operand hx).1]
  rfl

theorem lengthOf_operand {array : ArrayRef} {x : Operand} (hx : operand m.store array = .ok x) :
    m.lengthOf array = x.length := by
  rw [Memory.lengthOf, (descriptor?_of_operand hx).1]
  rfl

/-- The words of the bytes that a range operation reads. -/
theorem wordsAt_of_read {array : ArrayRef} {x : Operand} (hx : operand m.store array = .ok x)
    {offset count : Int16} {start n : Nat} (hstart : index? offset = some start)
    (hn : index? count = some n) {bytes : List UInt8}
    (hread : m.store.read array (start * x.width) (n * x.width) = .ok bytes) :
    m.wordsAt array offset count = words x.width bytes := by
  obtain ⟨cell, hcell, hbytes⟩ := Store.read_eq_ok_iff.mp hread
  have hfound := (Store.cell_eq_ok_iff.mp hcell).2
  have hd := (descriptor?_of_operand hx).1
  rw [Store.descriptor?, Table.descriptor?, hfound, Option.map_some, Option.some.injEq] at hd
  rw [Memory.wordsAt, hfound, (Cell.read_eq_ok_iff.mp hbytes).2, (index?_eq_some hstart).1,
    (index?_eq_some hn).1]
  dsimp only
  rw [hd]
  rfl

theorem length_words {width : Nat} (hwidth : 0 < width) {bytes : List UInt8} {count : Nat}
    (h : bytes.length = count * width) : (words width bytes).length = count := by
  rw [words, List.length_map, chunks_eq_map, List.length_map, List.length_range, h,
    Nat.mul_div_cancel _ hwidth]

/-- A comparison looks at all pairs that agree, and at one more if there is one. -/
theorem examined_compareElements (examined : Nat) (xs ys : List UInt32)
    (h : xs.length = ys.length) :
    (compareElements examined xs ys).2 =
      examined + min (((xs.zip ys).takeWhile fun pair => pair.1 == pair.2).length + 1) xs.length := by
  induction xs generalizing examined ys with
  | nil => rfl
  | cons x xs ih =>
    cases ys with
    | nil => cases h
    | cons y ys =>
      rw [compareElements, List.zip_cons_cons, List.takeWhile_cons]
      rcases heq : (x == y) with _ | _
      · have hne : x ≠ y := ne_of_beq_false heq
        have hone : examined + min (([] : List (UInt32 × UInt32)).length + 1) (x :: xs).length =
            examined + 1 := by simp
        rw [if_neg Bool.false_ne_true, hone]
        split
        · rfl
        · split
          · rfl
          next hlt hgt =>
            exact absurd (UInt32.le_antisymm (UInt32.not_lt.mp hgt) (UInt32.not_lt.mp hlt)) hne
      · obtain rfl := eq_of_beq heq
        rw [if_pos rfl, if_neg (UInt32.lt_irrefl x), if_neg (UInt32.lt_irrefl x),
          ih _ _ (Nat.succ.inj h), List.length_cons, List.length_cons]
        omega

/-- What is written or looked at, and how far it came, in a transfer that succeeded. -/
theorem elements_transfer {p : Protection} {array : ArrayRef} {offset last elements n : Nat}
    {bytes : List UInt8} {a : Int16} {m m' : Memory}
    (h : (do
      write p array offset bytes
      let next ← Act.query fun _ => shortIndex last
      pure (next, elements) : Act Memory (Int16 × Nat)).exec m = (.ok (a, n), m')) :
    n = elements := by
  obtain ⟨_, _, _, h⟩ := Act.exec_bind_eq_ok h
  obtain ⟨_, _, _, h⟩ := Act.exec_bind_eq_ok h
  cases h
  rfl

/-- A range operation before it reports on itself, and the reply that is made of its result. -/
structure Works (command : Command μ) (x : Act Memory (α × Nat)) (reply : α → Reply) : Prop where
  orderly : ∀ c, x.Orderly c
  elements : ∀ {m m' : Memory} {a : α} {n : Nat},
    x.exec m = (.ok (a, n), m') → n = command.handled m (reply a)

theorem works_copy (p : Protection) (source : ArrayRef) (sourceOffset sourceLength : Int16)
    (destination : ArrayRef) (destinationOffset : Int16) :
    Works (μ := μ) (.copy p source sourceOffset sourceLength destination destinationOffset)
      (do
        let plan ← Act.query fun m =>
          Copy.plan m.store p source sourceOffset sourceLength destination destinationOffset
        let bytes ← Act.query fun m => m.store.read source plan.sourceByte plan.byteCount
        write p destination plan.destinationByte bytes
        let next ← Act.query fun _ => shortIndex (plan.destinationOffset + plan.elements)
        pure (next, plan.elements)) Reply.short where
  orderly := fun _ =>
    .bind (.query fun m => (checks_copyPlan m.store _ _ _ _ _ _).refuses) fun _ =>
      .bind (.query fun m => refuses_read m.store _ _ _) fun _ =>
        .bind (orderly_write _ _ _ _) fun _ =>
          .bind (.query fun _ => refuses_shortIndex _) fun _ => .pure _
  elements := by
    intro m m' a n h
    obtain ⟨plan, hplan, h⟩ := Act.exec_query_bind_eq_ok h
    obtain ⟨bytes, _, h⟩ := Act.exec_query_bind_eq_ok h
    obtain ⟨x, y, _, count, _, hx, hy, _, hcount, _, _, helements, _⟩ := Copy.plan_eq_ok hplan
    rw [elements_transfer h, Command.handled, widthOf_operand hx, widthOf_operand hy,
      ← (index?_eq_some hcount).1]
    have hwidth := repackedCount_width helements
    exact (Nat.div_eq_of_eq_mul_left y.kind.width_pos hwidth.symm).symm

theorem works_fill (p : Protection) (array : ArrayRef) (offset length : Int16)
    (valueArray : ArrayRef) (valueOffset : Int16) :
    Works (μ := μ) (.fill p array offset length valueArray valueOffset)
      (do
        let plan ← Act.query fun m => Fill.plan m.store p array offset length valueArray valueOffset
        let element ← Act.query fun m =>
          m.store.read valueArray (plan.valueOffset * plan.width) plan.width
        write p array (plan.offset * plan.width) (List.replicate plan.count element).flatten
        let next ← Act.query fun _ => shortIndex (plan.offset + plan.count)
        pure (next, plan.count)) Reply.short where
  orderly := fun _ =>
    .bind (.query fun m => (checks_fillPlan m.store _ _ _ _ _ _).refuses) fun _ =>
      .bind (.query fun m => refuses_read m.store _ _ _) fun _ =>
        .bind (orderly_write _ _ _ _) fun _ =>
          .bind (.query fun _ => refuses_shortIndex _) fun _ => .pure _
  elements := by
    intro m m' a n h
    obtain ⟨plan, hplan, h⟩ := Act.exec_query_bind_eq_ok h
    obtain ⟨element, _, h⟩ := Act.exec_query_bind_eq_ok h
    obtain ⟨x, y, _, _, _, _, hcount, _⟩ := Fill.plan_eq_ok hplan
    rw [elements_transfer h, Command.handled, (index?_eq_some hcount).1]

/-- What the checks of a comparison establish, and what it looks at. -/
theorem compared_eq_ok {s : Store} {left right : ArrayRef} {leftOffset rightOffset length : Int16}
    {sign : Int8} {n : Nat}
    (h : compared s left leftOffset right rightOffset length = .ok (sign, n)) :
    ∃ x y leftFrom rightFrom count leftBytes rightBytes, operand s left = .ok x ∧
      operand s right = .ok y ∧ x.kind = y.kind ∧ index? leftOffset = some leftFrom ∧
      index? rightOffset = some rightFrom ∧ index? length = some count ∧
      s.read left (leftFrom * x.width) (count * x.width) = .ok leftBytes ∧
      s.read right (rightFrom * x.width) (count * x.width) = .ok rightBytes ∧
      (sign, n) = compareElements 0 (words x.width leftBytes) (words x.width rightBytes) := by
  unfold compared at h
  obtain ⟨⟨x, y⟩, hxy, h⟩ := bind_eq_ok_iff.mp h
  obtain ⟨_, hkinds, h⟩ := bind_eq_ok_iff.mp h
  obtain ⟨leftFrom, hleftFrom, h⟩ := bind_eq_ok_iff.mp h
  obtain ⟨rightFrom, hrightFrom, h⟩ := bind_eq_ok_iff.mp h
  obtain ⟨count, hcount, h⟩ := bind_eq_ok_iff.mp h
  obtain ⟨_, _, h⟩ := bind_eq_ok_iff.mp h
  obtain ⟨_, _, h⟩ := bind_eq_ok_iff.mp h
  obtain ⟨leftBytes, hleft, h⟩ := bind_eq_ok_iff.mp h
  obtain ⟨rightBytes, hright, h⟩ := bind_eq_ok_iff.mp h
  obtain ⟨hx, hy⟩ := operands_eq_ok hxy
  exact ⟨x, y, leftFrom, rightFrom, count, leftBytes, rightBytes, hx, hy,
    checkKinds_eq_ok_iff.mp hkinds, natural_eq_ok_iff.mp hleftFrom, natural_eq_ok_iff.mp hrightFrom,
    natural_eq_ok_iff.mp hcount, hleft, hright, (Except.ok.inj h).symm⟩

theorem works_compare (left : ArrayRef) (leftOffset : Int16) (right : ArrayRef)
    (rightOffset length : Int16) :
    Works (μ := μ) (.compare left leftOffset right rightOffset length)
      (.query fun m => compared m.store left leftOffset right rightOffset length) Reply.sign where
  orderly := fun _ => .query fun m => refuses_compared m.store _ _ _ _ _
  elements := by
    intro m m' sign n h
    obtain ⟨h, _⟩ := Prod.mk.inj h
    obtain ⟨x, y, leftFrom, rightFrom, count, leftBytes, rightBytes, hx, hy, hkind, hleftFrom,
      hrightFrom, hcount, hleft, hright, heq⟩ := compared_eq_ok h
    have hwidth : x.width = y.width := congrArg Kind.width hkind
    have hlength : (words x.width leftBytes).length = count :=
      length_words x.kind.width_pos (Store.length_of_read hleft)
    have hlength' : (words x.width rightBytes).length = count :=
      length_words x.kind.width_pos (Store.length_of_read hright)
    have hn := congrArg Prod.snd heq
    rw [examined_compareElements 0 _ _ (hlength.trans hlength'.symm), Nat.zero_add, hlength] at hn
    rw [Command.handled, wordsAt_of_read hx hleftFrom hcount hleft,
      wordsAt_of_read hy hrightFrom hcount (hwidth ▸ hright), ← hwidth, ← (index?_eq_some hcount).1]
    exact hn

/-- The short that stands for an index is the index. -/
theorem toInt_of_shortIndex {n : Nat} {i : Int16} (h : shortIndex n = .ok i) : i.toInt = n := by
  unfold shortIndex at h
  split at h
  next hle =>
    cases h
    exact toInt_ofNat_of_le hle
  next => cases h

theorem works_find (array : ArrayRef) (offset : Int16) (valueArray : ArrayRef)
    (valueOffset : Int16) :
    Works (μ := μ) (.find array offset valueArray valueOffset)
      (.query fun m => found m.store array offset valueArray valueOffset) Reply.short where
  orderly := fun _ => .query fun m => refuses_found m.store _ _ _ _
  elements := by
    intro m m' i n h
    obtain ⟨h, _⟩ := Prod.mk.inj h
    unfold found at h
    obtain ⟨⟨x, y⟩, hxy, h⟩ := bind_eq_ok_iff.mp h
    obtain ⟨start, hstart, h⟩ := bind_eq_ok_iff.mp h
    obtain ⟨_, _, h⟩ := bind_eq_ok_iff.mp h
    obtain ⟨_, _, h⟩ := bind_eq_ok_iff.mp h
    obtain ⟨_, _, h⟩ := bind_eq_ok_iff.mp h
    obtain ⟨_, _, h⟩ := bind_eq_ok_iff.mp h
    obtain ⟨hx, _⟩ := operands_eq_ok hxy
    obtain ⟨hoffset, hnonneg⟩ := index?_eq_some (natural_eq_ok_iff.mp hstart)
    rw [Command.handled, lengthOf_operand hx]
    split at h
    next position _ =>
      rcases hindex : shortIndex (start + position) with e | i'
      · rw [hindex] at h
        cases h
      · rw [hindex] at h
        cases h
        have hi := toInt_of_shortIndex hindex
        have hne : i ≠ -1 := by
          rintro rfl
          have hminus : ((-1 : Int16)).toInt = -1 := rfl
          omega
        rw [if_neg hne]
        omega
    next =>
      cases h
      rw [if_pos rfl, hoffset]

end Range

/-! ## Reports of range operations -/

namespace Range

/-- How a range operation ends that reports on itself. -/
theorem outcome_reported (operation : RangeOperation) (x : Act Memory (α × Nat)) (m : Memory) :
    (reported operation x m).result = (x m).result.map Prod.fst ∧
      (reported operation x m).state = (x m).state ∧
      (reported operation x m).events = (x m).events ++
        [match (x m).result with
          | .ok r => .rangeDone operation r.2
          | .error _ => .rangeFailed operation] := by
  rcases hexec : x.exec m with ⟨e | ⟨a, n⟩, m'⟩
  · have hfails : (x.onFault fun _ => Act.emit (.rangeFailed operation)).exec m =
        (.error e, m') := Act.exec_onFault_of_error hexec (Act.exec_emit _ m')
    have hends : (reported operation x).exec m = (.error e, m') := Act.exec_bind_of_error hfails
    rw [Act.result_eq_exec, Act.result_eq_exec, Act.state_eq_exec, Act.state_eq_exec, hends, hexec,
      reported, Act.events_bind_of_error hfails, Act.events_onFault_of_error hexec]
    exact ⟨rfl, rfl, rfl⟩
  · have hgoes : (x.onFault fun _ => Act.emit (.rangeFailed operation)).exec m =
        (.ok (a, n), m') := Act.exec_onFault_of_ok hexec
    have hends : (reported operation x).exec m = (.ok a, m') := Act.exec_bind_of_ok hgoes
    rw [Act.result_eq_exec, Act.result_eq_exec, Act.state_eq_exec, Act.state_eq_exec, hends, hexec,
      reported, Act.events_bind_of_ok hgoes, Act.events_onFault_of_ok hexec]
    exact ⟨rfl, rfl, rfl⟩

end Range

/-! ## Commands -/

namespace Session

variable [Matcher μ] {s : Session μ} {command : Command μ}

/-- Commands are orderly unless they replace the card or report on themselves. -/
theorem orderly_perform (hrange : command.operation? = none)
    (hrestore : command.isRestore = false) : (perform command).Orderly c := by
  cases command
  case begin => exact .map (orderly_onMemory Memory.orderly_begin) _
  case commit => exact .map (orderly_onMemory Memory.orderly_commit) _
  case abort => exact .map (orderly_onMemory Memory.orderly_abort) _
  case reset => exact .map (orderly_onMemory Memory.orderly_reset) _
  case deselect => exact .map (orderly_onMemory Memory.orderly_deselect) _
  case injectPowerLoss => exact .map (orderly_onMemory (Memory.orderly_arm _)) _
  case injectBitFlip => exact .map (orderly_onMemory (Memory.orderly_flip _ _ _)) _
  case makePersistent => exact .map (orderly_onMemory (Memory.orderly_makePersistent _ _)) _
  case makeTransient => exact .map (orderly_onMemory (Memory.orderly_makeTransient _ _ _)) _
  case makeSensitive => exact .map (orderly_onCard (Card.orderly_makeSensitiveArray _ _ _)) _
  case setElement => exact .map (orderly_onMemory (Memory.orderly_setElement _ _ _)) _
  case loadElements => exact .map (orderly_onMemory (Memory.orderly_loadElements _ _)) _
  case setShort => exact .map (orderly_onMemory (Packing.orderly_writeWord _ _ _ _)) _
  case setInt => exact .map (orderly_onMemory (Packing.orderly_writeWord _ _ _ _)) _
  case assertIntegrity => exact .map (orderly_onMemory (Integrity.orderly_check _)) _
  case clearArray => exact .map (orderly_onMemory (Integrity.orderly_clear _)) _
  case makeTemplate => exact orderly_makeTemplate _ _ _
  case templateInit => exact .map (orderly_onBench _ (Bench.orderly_update _)) _
  case templateReset => exact .map (orderly_onBench _ (Bench.orderly_update _)) _
  case templateUpdate data =>
    refine .map (orderly_onBench _ (Bench.orderly_onTemplate (fun _ => Act.events_step _ _) ?_)) _
    exact fun t => (checks_update data t).refuses
  case templateFinish =>
    refine .map (orderly_onBench _ (Bench.orderly_onTemplate (fun t => ?_) fun t => ?_)) _
    · unfold Template.finish
      rw [Act.events_bind_of_ok (Act.exec_read _ _), Act.events_read]
      rcases t.enrolment with _ | data
      · rfl
      · dsimp only
        rw [Act.events_bind_of_ok (Act.exec_modify _ _), Act.events_ite]
        split <;> rfl
    · exact (checks_finish t).refuses
  case templateInitMatch => exact .map (orderly_onBench _ (Bench.orderly_initMatch _)) _
  case templateMatch => exact .map (orderly_onBench _ (Bench.orderly_matchData _)) _
  case templateResetTryLimit => exact .map (orderly_onBench _ (Bench.orderly_resetTryLimit _)) _
  case templateTries =>
    refine .map (orderly_onBench _ (.query fun b => ?_)) _
    exact refuses_byteAt b.card.memory b.template.counter 1
  case templatePublicData =>
    exact .map (orderly_onBench _ (.query fun b => (checks_publicData b.template _ _).refuses)) _
  case capacities => exact .read _
  case image => exact .read _
  case descriptor => exact .map (orderly_askCard fun _ => (checks_descriptor _ _ _).refuses) _
  case isTransient =>
    exact .map (orderly_askCard fun _ => ((checks_descriptor _ _ _).map _).refuses) _
  case availableMemory =>
    exact .map (orderly_askCard fun _ => ((checks_available _ _).map _).refuses) _
  case availableMemoryExtended =>
    exact .map (orderly_askCard fun _ => (checks_available _ _).refuses) _
  case getElement => exact .map (orderly_askCard fun _ => refuses_element _ _ _) _
  case elements => exact .map (orderly_askCard fun _ => refuses_elements _ _) _
  case rawBytes => exact .map (orderly_askCard fun _ => refuses_payload _ _) _
  case getShort => exact .map (orderly_askCard fun _ => (refuses_readWord _ _ _ _).map _) _
  case getInt => exact .map (orderly_askCard fun _ => (refuses_readWord _ _ _ _).map _) _
  case isSensitive =>
    exact .map (orderly_askCard fun _ => ((checks_descriptor _ _ _).map _).refuses) _
  case copy p _ _ _ _ _ => cases p <;> cases hrange
  case fill p _ _ _ _ _ => cases p <;> cases hrange
  case compare => cases hrange
  case find => cases hrange
  case restore => cases hrestore
  case installObserver => exact orderly_onTelemetry fun t => (Reply.done, t.install)
  case removeObserver => exact orderly_onTelemetry fun t => (Reply.events t.remove.1, t.remove.2)
  case totals => exact orderly_onTelemetry fun t => (Reply.totals t.totals, t)
  case resetTotals => exact orderly_onTelemetry fun t => (Reply.done, t.reset)

/-- The range operations do their work, and then report on themselves. -/
theorem works_perform (hrange : command.operation? = some operation) :
    ∃ (α : Type) (x : Act Memory (α × Nat)) (reply : α → Reply), Range.Works command x reply ∧
      perform command = reply <$> onCard (Card.onMemory (Range.reported operation x)) := by
  cases command
  case copy p source sourceOffset sourceLength destination destinationOffset =>
    refine ⟨_, _, _, Range.works_copy p source sourceOffset sourceLength destination
      destinationOffset, ?_⟩
    cases p <;> cases hrange <;> rfl
  case fill p array offset length valueArray valueOffset =>
    refine ⟨_, _, _, Range.works_fill p array offset length valueArray valueOffset, ?_⟩
    cases p <;> cases hrange <;> rfl
  case compare =>
    cases hrange
    exact ⟨_, _, _, Range.works_compare _ _ _ _ _, rfl⟩
  case find =>
    cases hrange
    exact ⟨_, _, _, Range.works_find _ _ _ _, rfl⟩
  all_goals cases hrange

omit [Matcher μ] in
theorem report_of_plain (hrange : command.operation? = none) (m : Memory)
    (result : Except Fault Reply) : command.report m result = [] := by
  unfold Command.report
  rw [hrange]

/-- Whether a command accounts for what it does to the transaction, and then reports on itself if it
is a range operation. -/
def Accounts (s : Session μ) (command : Command μ) : Prop :=
  ∃ es, (step command s).events = es ++ command.report s.card.memory (step command s).result ∧
    Told s.card.memory.bracket (step command s).result es
      (step command s).state.card.memory.bracket

/-- A command that is no range operation reports what its act does. -/
theorem Accounts.of_perform (hrange : command.operation? = none)
    (h : (perform command).Accounts bracketOf s) : Accounts s command := by
  refine ⟨(perform command s).events, ?_, h⟩
  rw [report_of_plain hrange, List.append_nil]
  rfl

theorem accounts_range (h : s.card.memory.InOrder c)
    (hrange : command.operation? = some operation) : Accounts s command := by
  obtain ⟨α, x, reply, hworks, hperform⟩ := works_perform hrange
  obtain ⟨hresult, hstate, hevents⟩ := Range.outcome_reported operation x s.card.memory
  have hstep : (step command s).events = (Range.reported operation x s.card.memory).events := by
    show (perform command s).events = _
    rw [hperform, Act.events_map]
    rfl
  have hends : (step command s).result =
      (Range.reported operation x s.card.memory).result.map reply := by
    show ((perform command).exec s).1 = _
    rw [hperform, Act.exec_map]
    rfl
  have hleaves : (step command s).state.card.memory =
      (Range.reported operation x s.card.memory).state := by
    show ((perform command).exec s).2.card.memory = _
    rw [hperform, Act.exec_map]
    rfl
  have htold : Told s.card.memory.bracket (x s.card.memory).result (x s.card.memory).events
      (x s.card.memory).state.bracket := (hworks.orderly c).accounts s.card.memory h
  refine ⟨(x s.card.memory).events, ?_, ?_⟩
  · rw [hstep, hevents, hends, hresult]
    rcases hx : (x s.card.memory).result with e | ⟨a, n⟩
    · unfold Command.report
      rw [hrange]
      rfl
    · have hexec : x.exec s.card.memory = (.ok (a, n), (x s.card.memory).state) :=
        Prod.ext hx rfl
      have helements := hworks.elements hexec
      unfold Command.report
      rw [hrange]
      simp only [Except.map, helements]
  · rw [hends, hresult, hleaves, hstate]
    exact (htold.map Prod.fst).map reply

theorem Reachable.inOrder (h : s.Reachable) : s.card.memory.InOrder s.card.config :=
  ⟨h.sound.memory, h.sound.settled, h.balanced.used_le⟩

/-- Every command that leaves the card in its place accounts for what it does. -/
theorem accounts_step (h : s.card.memory.InOrder c) (hcard : ¬command.PowersUp s) :
    Accounts s command := by
  rcases hrange : command.operation? with _ | operation
  · rcases hrestore : command.isRestore with _ | _
    · have horderly : (perform command).Orderly c := orderly_perform hrange hrestore
      exact .of_perform hrange (horderly.accounts s h)
    · obtain ⟨e, hrefusal, hperform⟩ := perform_restore_refused hrestore hcard
      refine .of_perform hrange ?_
      rw [Act.Accounts, hperform s]
      exact .refused hrefusal
  · exact accounts_range h hrange

end Session

end SmartCard
