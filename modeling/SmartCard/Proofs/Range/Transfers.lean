-- SUMMARY: Copies and fills as one notion: what they write, what the protection adds, and the ways in which they end.
import SmartCard.Proofs.Memory.Whole
import SmartCard.Proofs.Session.Committed
import SmartCard.Proofs.Session.Lanes
import SmartCard.Proofs.Session.Reports

/-!
# Transfers

A copy and a fill both check their arguments, read, write what they have read, and return the index
after the last element (`Transfer.output`). The protection adds one check to this, after all others,
and chooses the lane of the write. So a transfer ends in one of five ways (`Transfer.Ended`).
-/

namespace SmartCard

variable {μ : Type} {c : Config} {s : Store} {m : Memory} {d : Descriptor}

namespace Range

/-! ## Checks -/

theorem index?_eq_some_iff {value : Int16} {n : Nat} : index? value = some n ↔ value.toInt = n := by
  constructor
  · intro h
    obtain ⟨hn, hnonneg⟩ := index?_eq_some h
    omega
  · intro h
    have hnonneg : ¬value < 0 := fun hneg => by
      have hlt : value.toInt < 0 := Int16.lt_iff_toInt_lt.mp hneg
      omega
    rw [index?, if_neg hnonneg, h, Int.toNat_natCast]

theorem index?_of_nonneg {value : Int16} (h : 0 ≤ value.toInt) :
    index? value = some value.toInt.toNat :=
  index?_eq_some_iff.mpr (Int.toNat_of_nonneg h).symm

theorem operand_of_numeric {s : Store} {array : ArrayRef} {d : Descriptor} (h : s.Sound c)
    (hd : s.descriptor? array = some d) (hnumeric : d.kind.isNumeric = true) :
    operand s array = .ok ⟨array, d⟩ :=
  operand_eq_ok_iff.mpr ⟨d, h.descriptor_iff.mpr hd, hnumeric, rfl⟩

/-- Two arrays of numbers are accepted together, since neither reference is null. -/
theorem operands_of_ok {first second : ArrayRef} {x y : Operand} (hx : operand s first = .ok x)
    (hy : operand s second = .ok y) : operands s first second = .ok (x, y) := by
  have hnull : ∀ {array : ArrayRef} {z : Operand}, operand s array = .ok z →
      array.isNull = false := by
    intro array z hz
    obtain ⟨d, hd, _⟩ := operand_eq_ok_iff.mp hz
    obtain ⟨cell, hcell, _⟩ := Store.descriptor_eq_ok_iff.mp hd
    have hne := (Store.cell_eq_ok_iff.mp hcell).1
    simpa [ArrayRef.isNull, ArrayRef.null, ArrayRef.ext_iff] using hne
  simp [operands, hnull hx, hnull hy, hx, hy, bind, Except.bind, pure, Except.pure]

/-- A copy or a fill, whatever the protection that it writes under. -/
inductive Transfer where
  | copy (source : ArrayRef) (sourceOffset sourceLength : Int16) (destination : ArrayRef)
    (destinationOffset : Int16)
  | fill (array : ArrayRef) (offset length : Int16) (valueArray : ArrayRef) (valueOffset : Int16)
  deriving DecidableEq, Repr

/-- The bytes that a transfer writes, where, and the index after its last element. -/
structure Output where
  offset : Nat
  bytes : List UInt8
  last : Nat
  deriving DecidableEq, Repr

namespace Transfer

variable {p : Protection} {t : Transfer} {o : Output}

/-- The array that a transfer writes to. -/
def destination : Transfer → ArrayRef
  | .copy _ _ _ destination _ => destination
  | .fill array .. => array

def command (p : Protection) : Transfer → Command μ
  | .copy source sourceOffset sourceLength destination destinationOffset =>
    .copy p source sourceOffset sourceLength destination destinationOffset
  | .fill array offset length valueArray valueOffset =>
    .fill p array offset length valueArray valueOffset

def act (p : Protection) : Transfer → Act Memory Int16
  | .copy source sourceOffset sourceLength destination destinationOffset =>
    Range.copy p source sourceOffset sourceLength destination destinationOffset
  | .fill array offset length valueArray valueOffset =>
    Range.fill p array offset length valueArray valueOffset

/-- What a transfer writes if its checks pass. -/
def output (s : Store) (p : Protection) : Transfer → Except Fault Output
  | .copy source sourceOffset sourceLength destination destinationOffset => do
    let plan ← Copy.plan s p source sourceOffset sourceLength destination destinationOffset
    let bytes ← s.read source plan.sourceByte plan.byteCount
    pure ⟨plan.destinationByte, bytes, plan.destinationOffset + plan.elements⟩
  | .fill array offset length valueArray valueOffset => do
    let plan ← Fill.plan s p array offset length valueArray valueOffset
    let element ← s.read valueArray (plan.valueOffset * plan.width) plan.width
    pure ⟨plan.offset * plan.width, (List.replicate plan.count element).flatten,
      plan.offset + plan.count⟩

/-! ## What is written -/

/-- What a transfer writes lies within its destination, an array of numbers. -/
structure Fits (t : Transfer) (s : Store) (o : Output) (d : Descriptor) : Prop where
  destination : s.descriptor? t.destination = some d
  numeric : d.kind.isNumeric = true
  bytes : o.offset + o.bytes.length ≤ d.byteLength
  last : o.last ≤ maxArrayLength

/-- The index that is returned is not cut off. -/
theorem Fits.toInt_last (h : t.Fits s o d) : (Int16.ofNat o.last).toInt = o.last :=
  toInt_ofNat_of_le h.last

/-- Outputs of copies. -/
theorem fits_copy (h : s.Sound c) {source destination : ArrayRef}
    {sourceOffset sourceLength destinationOffset : Int16}
    (ho : (copy source sourceOffset sourceLength destination destinationOffset).output s p =
      .ok o) :
    ∃ d, (copy source sourceOffset sourceLength destination destinationOffset).Fits s o d := by
  obtain ⟨plan, hplan, ho⟩ := bind_eq_ok_iff.mp ho
  obtain ⟨bytes, hread, ho⟩ := bind_eq_ok_iff.mp ho
  cases ho
  obtain ⟨x, y, start, count, target, _, hy, _, _, _, _, helements, hrange, _, hplan⟩ :=
    Copy.plan_eq_ok hplan
  obtain ⟨d, hd, hnumeric, rfl⟩ := operand_eq_ok_iff.mp hy
  have hlength := Store.length_of_read hread
  have hwidth : plan.elements * d.kind.width = count * x.width := repackedCount_width helements
  have hbytes := Descriptor.mul_width_le (d := d) hrange
  rw [hplan] at hlength ⊢
  refine ⟨d, h.descriptor_iff.mp hd, hnumeric, ?_, ?_⟩
  · show target * d.kind.width + bytes.length ≤ d.byteLength
    rw [hlength, ← hwidth]
    exact hbytes
  · exact Nat.le_trans hrange (operand_length_le h hy)

/-- Outputs of fills. -/
theorem fits_fill (h : s.Sound c) {array valueArray : ArrayRef} {offset length valueOffset : Int16}
    (ho : (fill array offset length valueArray valueOffset).output s p = .ok o) :
    ∃ d, (fill array offset length valueArray valueOffset).Fits s o d := by
  obtain ⟨plan, hplan, ho⟩ := bind_eq_ok_iff.mp ho
  obtain ⟨element, helement, ho⟩ := bind_eq_ok_iff.mp ho
  cases ho
  obtain ⟨x, y, hx, _, _, _, _, _, hrange, _, _, hwidth⟩ := Fill.plan_eq_ok hplan
  obtain ⟨d, hd, hnumeric, rfl⟩ := operand_eq_ok_iff.mp hx
  have hlength : (List.replicate plan.count element).flatten.length = plan.count * plan.width := by
    simp [Store.length_of_read helement]
  have hbytes := Descriptor.mul_width_le (d := d) hrange
  refine ⟨d, h.descriptor_iff.mp hd, hnumeric, ?_, Nat.le_trans hrange (operand_length_le h hx)⟩
  show plan.offset * plan.width + _ ≤ d.byteLength
  rw [hlength, hwidth]
  exact hbytes

theorem fits_of_output (h : s.Sound c) (ho : t.output s p = .ok o) : ∃ d, t.Fits s o d := by
  cases t with
  | copy => exact fits_copy h ho
  | fill => exact fits_fill h ho

/-! ## What the protection adds -/

end Transfer

/-- The protection of a copy is checked after all else. -/
theorem Copy.plan_protected (s : Store) (p : Protection) (source : ArrayRef)
    (sourceOffset sourceLength : Int16) (destination : ArrayRef) (destinationOffset : Int16) :
    Copy.plan s p source sourceOffset sourceLength destination destinationOffset = (do
      let plan ←
        Copy.plan s .atomic source sourceOffset sourceLength destination destinationOffset
      let y ← operand s destination
      checkProtection p y
      pure plan) := by
  unfold Copy.plan
  rcases hxy : operands s source destination with e | ⟨x, y⟩
  · rfl
  have hy : operand s destination = .ok y := (operands_eq_ok hxy).2
  simp only [bind, Except.bind, hy]
  rcases natural .sourceOffset sourceOffset with _ | start
  · rfl
  rcases natural .sourceLength sourceLength with _ | count
  · rfl
  rcases natural .destinationOffset destinationOffset with _ | target
  · rfl
  dsimp only
  rcases checkRange .source x start count with _ | _
  · rfl
  rcases repackedCount x.kind y.kind count with _ | elements
  · rfl
  dsimp only
  rcases checkRange .destination y target elements with _ | _
  · rfl
  · rfl

/-- So is the protection of a fill. -/
theorem Fill.plan_protected (s : Store) (p : Protection) (array : ArrayRef) (offset length : Int16)
    (valueArray : ArrayRef) (valueOffset : Int16) :
    Fill.plan s p array offset length valueArray valueOffset = (do
      let plan ← Fill.plan s .atomic array offset length valueArray valueOffset
      let x ← operand s array
      checkProtection p x
      pure plan) := by
  unfold Fill.plan
  rcases hxy : operands s array valueArray with e | ⟨x, y⟩
  · rfl
  have hx : operand s array = .ok x := (operands_eq_ok hxy).1
  simp only [bind, Except.bind, hx]
  rcases checkKinds x y with _ | _
  · rfl
  rcases natural .fillOffset offset with _ | start
  · rfl
  rcases natural .fillLength length with _ | count
  · rfl
  rcases natural .valueOffset valueOffset with _ | value
  · rfl
  dsimp only
  rcases checkRange .fill x start count with _ | _
  · rfl
  rcases checkRange .value y value 1 with _ | _
  · rfl
  · rfl

/-- The bytes of a copy that passes its checks can be read. -/
theorem Copy.read_isOk (h : s.Sound c) {p : Protection} {source destination : ArrayRef}
    {sourceOffset sourceLength destinationOffset : Int16} {plan : Copy}
    (hplan : Copy.plan s p source sourceOffset sourceLength destination destinationOffset =
      .ok plan) :
    ∃ bytes, s.read source plan.sourceByte plan.byteCount = .ok bytes := by
  obtain ⟨x, y, start, count, target, hx, _, _, _, _, hrange, _, _, _, hplan⟩ :=
    Copy.plan_eq_ok hplan
  obtain ⟨d, hd, _, rfl⟩ := operand_eq_ok_iff.mp hx
  rw [hplan]
  exact h.read_isOk (h.descriptor_iff.mp hd) (Descriptor.mul_width_le hrange)

/-- So can the element of a fill. -/
theorem Fill.read_isOk (h : s.Sound c) {p : Protection} {array valueArray : ArrayRef}
    {offset length valueOffset : Int16} {plan : Fill}
    (hplan : Fill.plan s p array offset length valueArray valueOffset = .ok plan) :
    ∃ element, s.read valueArray (plan.valueOffset * plan.width) plan.width = .ok element := by
  obtain ⟨x, y, _, hy, hkind, _, _, _, _, hrange, _, hwidth⟩ := Fill.plan_eq_ok hplan
  obtain ⟨d, hd, _, rfl⟩ := operand_eq_ok_iff.mp hy
  have hbytes := Descriptor.mul_width_le (d := d) hrange
  have hsame : plan.width = d.kind.width := hwidth.trans (congrArg Kind.width hkind)
  rw [Nat.one_mul] at hbytes
  rw [hsame]
  exact h.read_isOk (h.descriptor_iff.mp hd) hbytes

namespace Transfer

variable {p : Protection} {t : Transfer} {o : Output}

/-- The checks of a transfer are those of the atomic one, and then that of its protection. -/
theorem output_eq (h : s.Sound c) (p : Protection) (t : Transfer) :
    t.output s p = (do
      let o ← t.output s .atomic
      let y ← operand s t.destination
      checkProtection p y
      pure o) := by
  cases t with
  | copy source sourceOffset sourceLength destination destinationOffset =>
    have hprotected := Copy.plan_protected s p source sourceOffset sourceLength destination
      destinationOffset
    rcases hplan : Copy.plan s .atomic source sourceOffset sourceLength destination
      destinationOffset with e | plan
    · rw [hplan] at hprotected
      simp only [output, hprotected, hplan]
      rfl
    · obtain ⟨bytes, hread⟩ := Copy.read_isOk h hplan
      rw [hplan] at hprotected
      simp only [output, hprotected, hplan, Transfer.destination, bind, Except.bind, hread]
      rcases operand s destination with _ | y
      · rfl
      dsimp only
      rcases checkProtection p y with _ | _
      · rfl
      · simp only [pure, Except.pure, hread]
  | fill array offset length valueArray valueOffset =>
    have hprotected := Fill.plan_protected s p array offset length valueArray valueOffset
    rcases hplan : Fill.plan s .atomic array offset length valueArray valueOffset with e | plan
    · rw [hplan] at hprotected
      simp only [output, hprotected, hplan]
      rfl
    · obtain ⟨element, hread⟩ := Fill.read_isOk h hplan
      rw [hplan] at hprotected
      simp only [output, hprotected, hplan, Transfer.destination, bind, Except.bind, hread]
      rcases operand s array with _ | x
      · rfl
      dsimp only
      rcases checkProtection p x with _ | _
      · rfl
      · simp only [pure, Except.pure, hread]

/-- Where the atomic transfer is refused, the other one is refused with the same fault. -/
theorem output_of_error (h : s.Sound c) {e : Fault} (he : t.output s .atomic = .error e) :
    t.output s p = .error e := by
  rw [output_eq h, he]
  rfl

/-- Where the atomic transfer passes, the other one passes too unless its destination is to be
written whole. -/
theorem output_of_ok (h : s.Sound c) (ho : t.output s .atomic = .ok o) (hfits : t.Fits s o d) :
    t.output s p =
      if p = .nonAtomic ∧ d.requiresAtomicWrites = true then .error (.nonAtomicWrite t.destination)
      else .ok o := by
  have hy := operand_of_numeric h hfits.destination hfits.numeric
  rw [output_eq h, ho]
  simp only [bind, Except.bind, hy]
  cases p with
  | atomic => simp [checkProtection, pure, Except.pure]
  | nonAtomic =>
    unfold checkProtection
    rcases hatomic : d.requiresAtomicWrites with _ | _ <;> simp [pure, Except.pure]

end Transfer

/-! ## How transfers end -/

theorem exec_reported {α : Type} (operation : RangeOperation) (x : Act Memory (α × Nat))
    (m : Memory) :
    (reported operation x).exec m = ((x.exec m).1.map Prod.fst, (x.exec m).2) := by
  obtain ⟨hresult, hstate, _⟩ := outcome_reported operation x m
  exact Prod.ext hresult hstate

/-- Nothing keeps bytes from being written to an array: the array may be written so, the tear budget
covers them, and if they are logged there is room for their undo entry. -/
structure Unhindered (p : Protection) (m : Memory) (d : Descriptor) (count : Nat) : Prop where
  guarded : p = .nonAtomic → d.requiresAtomicWrites = false
  powered : ∀ budget, m.store.tear = some budget → count ≤ budget.toNat
  roomy : p = .atomic → d.lifetime.isPersistent = true → 0 < count →
    m.transaction.log.cost count ≤ m.transaction.unusedCapacity.toNat

namespace Transfer

variable {p : Protection} {t : Transfer} {o : Output}

theorem exec_act (h : m.store.Sound c) (p : Protection) (t : Transfer) :
    (t.act p).exec m = match t.output m.store p with
      | .error e => (.error e, m)
      | .ok o =>
        (((write p t.destination o.offset o.bytes).exec m).1.map fun _ => Int16.ofNat o.last,
          ((write p t.destination o.offset o.bytes).exec m).2) := by
  cases t with
  | copy source sourceOffset sourceLength destination destinationOffset =>
    unfold act Range.copy
    rw [exec_reported]
    rcases hplan : Copy.plan m.store p source sourceOffset sourceLength destination
      destinationOffset with e | plan
    · have ho : (copy source sourceOffset sourceLength destination destinationOffset).output
          m.store p = .error e := by
        simp only [output, hplan, bind, Except.bind]
      simp only [Act.exec_bind, Act.exec_query, hplan, ho]
      rfl
    · obtain ⟨bytes, hread⟩ := Copy.read_isOk h hplan
      have ho : (copy source sourceOffset sourceLength destination destinationOffset).output
          m.store p =
            .ok ⟨plan.destinationByte, bytes, plan.destinationOffset + plan.elements⟩ := by
        simp only [output, hplan, hread, bind, Except.bind, pure, Except.pure]
      obtain ⟨_, hfits⟩ := fits_of_output h ho
      simp only [Act.exec_bind, Act.exec_query, Act.exec_pure, hplan, hread,
        shortIndex_of_le hfits.last, ho, Transfer.destination]
      rcases ((write p destination plan.destinationByte bytes).exec m).1 with _ | _ <;> rfl
  | fill array offset length valueArray valueOffset =>
    unfold act Range.fill
    rw [exec_reported]
    rcases hplan : Fill.plan m.store p array offset length valueArray valueOffset with e | plan
    · have ho : (fill array offset length valueArray valueOffset).output m.store p = .error e := by
        simp only [output, hplan, bind, Except.bind]
      simp only [Act.exec_bind, Act.exec_query, hplan, ho]
      rfl
    · obtain ⟨element, hread⟩ := Fill.read_isOk h hplan
      have ho : (fill array offset length valueArray valueOffset).output m.store p =
          .ok ⟨plan.offset * plan.width, (List.replicate plan.count element).flatten,
            plan.offset + plan.count⟩ := by
        simp only [output, hplan, hread, bind, Except.bind, pure, Except.pure]
      obtain ⟨_, hfits⟩ := fits_of_output h ho
      simp only [Act.exec_bind, Act.exec_query, Act.exec_pure, hplan, hread,
        shortIndex_of_le hfits.last, ho, Transfer.destination]
      rcases ((write p array (plan.offset * plan.width)
        (List.replicate plan.count element).flatten).exec m).1 with _ | _ <;> rfl

/-- How a transfer ends: refused by a check, refused for its protection, torn, without room for the
undo entry, or done. -/
inductive Ended (t : Transfer) (p : Protection) (m : Memory) :
    Except Fault Int16 × Memory → Prop where
  | refused {e : Fault} : t.output m.store .atomic = .error e → Ended t p m (.error e, m)
  | guarded {o : Output} {d : Descriptor} :
      t.output m.store .atomic = .ok o → t.Fits m.store o d → p = .nonAtomic →
      d.requiresAtomicWrites = true → Ended t p m (.error (.nonAtomicWrite t.destination), m)
  | lost {o : Output} {d : Descriptor} {budget : UInt64} {e : Fault} {m' : Memory} :
      t.output m.store .atomic = .ok o → t.Fits m.store o d → m.store.tear = some budget →
      budget.toNat < o.bytes.length → e.isPowerLoss = true → Ended t p m (.error e, m')
  | full {o : Output} {d : Descriptor} {e : Fault} {m' : Memory} :
      t.output m.store .atomic = .ok o → t.Fits m.store o d → p = .atomic →
      d.lifetime.isPersistent = true → 0 < o.bytes.length →
      m.transaction.unusedCapacity.toNat < m.transaction.log.cost o.bytes.length →
      e.isBufferFull = true → Ended t p m (.error e, m')
  | done {o : Output} {d : Descriptor} {m' : Memory} :
      t.output m.store .atomic = .ok o → t.Fits m.store o d → Unhindered p m d o.bytes.length →
      m'.store = m.store.withBytes t.destination o.offset o.bytes → (o.bytes = [] → m' = m) →
      Ended t p m (.ok (Int16.ofNat o.last), m')

/-- The write of a transfer whose bytes are known and whose protection allows it. -/
theorem ended_writing (h : m.Sound c) (hs : m.Settled) (ho : t.output m.store .atomic = .ok o)
    (hfits : t.Fits m.store o d) (hguarded : p = .nonAtomic → d.requiresAtomicWrites = false) :
    Ended t p m
      (((write p t.destination o.offset o.bytes).exec m).1.map fun _ => Int16.ofNat o.last,
        ((write p t.destination o.offset o.bytes).exec m).2) := by
  by_cases hne : o.bytes = []
  · -- Nothing is written: neither the tear budget nor the commit buffer is asked for anything.
    have hwrite : write p t.destination o.offset o.bytes = pure () := by simp [write, hne]
    rw [hwrite, Act.exec_pure]
    refine .done ho hfits ⟨hguarded, ?_, ?_⟩ ?_ fun _ => rfl
    · simp [hne]
    · simp [hne]
    · simp [hne]
  · have hpos : 0 < o.bytes.length := List.length_pos_iff.mpr hne
    let w : Write := ⟨Command.laneOf p, t.destination, o.offset, o.bytes⟩
    have hw : w.InRange m.store := ⟨d, hfits.destination, hfits.bytes⟩
    have hwrite : write p t.destination o.offset o.bytes = w.act := by
      cases p <;> simp [write, hne, w, Write.act, Command.laneOf]
    have hlogs : w.logs m = .ok true ↔ p = .atomic ∧ d.lifetime.isPersistent = true := by
      have hlookup : m.store.descriptor .store t.destination = .ok d :=
        h.store.descriptor_iff.mpr hfits.destination
      cases p <;> simp [w, Write.logs, Command.laneOf, hlookup, Except.map]
    rw [hwrite]
    rcases hexec : w.act.exec m with ⟨e | _, m'⟩
    · have he : (w.act.exec m).1 = .error e := by rw [hexec]
      rcases Write.hindered_of_error hw h hs he with
        ⟨budget, htear, hlt, hloss⟩ | ⟨hlogged, hfull, hoverflow⟩
      · exact .lost ho hfits htear hlt hloss
      · obtain ⟨hatomic, hpersistent⟩ := hlogs.mp hlogged
        exact .full ho hfits hatomic hpersistent hpos
          (Nat.not_le.mp (of_decide_eq_false hfull)) hoverflow
    · have hok : (w.act.exec m).1 = .ok () := by rw [hexec]
      have hfree := (Write.act_eq_ok_iff hw h hs).mp hok
      have hstore := Write.store_of_done hw h hs hne hok
      rw [hexec] at hstore
      refine .done ho hfits ⟨hguarded, hfree.powered, fun hatomic hpersistent _ => ?_⟩ hstore
        fun hnil => absurd hnil hne
      exact of_decide_eq_true (hfree.roomy (hlogs.mpr ⟨hatomic, hpersistent⟩))

theorem ended (h : m.Sound c) (hs : m.Settled) (p : Protection) (t : Transfer) :
    Ended t p m ((t.act p).exec m) := by
  rw [exec_act h.store]
  rcases ho : t.output m.store .atomic with e | o
  · rw [output_of_error h.store ho]
    exact .refused ho
  · obtain ⟨d, hfits⟩ := fits_of_output h.store ho
    rw [output_of_ok h.store ho hfits]
    by_cases hguarded : p = .nonAtomic ∧ d.requiresAtomicWrites = true
    · rw [if_pos hguarded]
      exact .guarded ho hfits hguarded.1 hguarded.2
    · rw [if_neg hguarded]
      exact ended_writing h hs ho hfits fun hp => by simpa [hp] using hguarded

end Transfer

end Range

/-! ## Transfers as commands -/

/-- A fault that keeps a transfer whose arguments are in order from being done: power is lost, the
commit buffer is full, or the array is not to be written without logging. -/
def Fault.Hinders (array : ArrayRef) (e : Fault) : Prop :=
  e.isPowerLoss = true ∨ e.isBufferFull = true ∨ e = .nonAtomicWrite array

namespace Session

variable [Matcher μ] {s : Session μ} {p : Range.Protection} {t : Range.Transfer}
  {o : Range.Output} {e : Fault} {reply : Reply}

/-- A transfer does to the memory of the card what its act does. -/
theorem ended_transfer (h : s.Sound) (p : Range.Protection) (t : Range.Transfer) :
    ∃ r, t.Ended p s.card.memory r ∧ (step (t.command p) s).result = r.1.map .short ∧
      (step (t.command p) s).state.card = { s.card with memory := r.2 } := by
  have hended := Range.Transfer.ended h.memory h.settled p t
  have hperform : perform (t.command p : Command μ) =
      .short <$> onCard (Card.onMemory (t.act p)) := by
    cases t <;> rfl
  obtain ⟨hresult, hcard, _⟩ := step_onMemory (t.command p) hperform s
  exact ⟨_, hended, hresult, hcard⟩

/-- What a transfer that succeeds has done: if it had nothing to write, nothing at all. -/
theorem transfer_done (h : s.Sound) (hok : (step (t.command p) s).result = .ok reply) :
    ∃ o d, t.output s.card.memory.store .atomic = .ok o ∧ t.Fits s.card.memory.store o d ∧
      reply = .short (Int16.ofNat o.last) ∧
      (step (t.command p) s).state.card.memory.store =
        s.card.memory.store.withBytes t.destination o.offset o.bytes ∧
      (o.bytes = [] → (step (t.command p) s).state.card = s.card) := by
  obtain ⟨r, hended, hresult, hcard⟩ := ended_transfer h p t
  rw [hresult] at hok
  rw [hcard]
  cases hended with
  | done ho hfits _ hstore hnothing =>
    cases hok
    exact ⟨_, _, ho, hfits, rfl, hstore, fun hnil => by rw [hnothing hnil]⟩
  | refused | guarded | lost | full => cases hok

/-- A transfer succeeds exactly if its checks pass and nothing keeps it from writing. -/
theorem transfer_isOk_iff (h : s.Sound) :
    (∃ reply, (step (t.command p) s).result = .ok reply) ↔
      ∃ o d, t.output s.card.memory.store .atomic = .ok o ∧ t.Fits s.card.memory.store o d ∧
        Range.Unhindered p s.card.memory d o.bytes.length := by
  constructor
  · rintro ⟨reply, hok⟩
    obtain ⟨r, hended, hresult, _⟩ := ended_transfer h p t
    rw [hresult] at hok
    cases hended with
    | done ho hfits hfree => exact ⟨_, _, ho, hfits, hfree⟩
    | refused | guarded | lost | full => cases hok
  · rintro ⟨o, d, ho, hfits, hfree⟩
    obtain ⟨r, hended, hresult, _⟩ := ended_transfer h p t
    have hsame : ∀ {o' d'}, t.output s.card.memory.store .atomic = .ok o' →
        t.Fits s.card.memory.store o' d' → o' = o ∧ d' = d := by
      intro o' d' ho' hfits'
      rw [ho, Except.ok.injEq] at ho'
      have hd' := hfits'.destination
      rw [hfits.destination, Option.some.injEq] at hd'
      exact ⟨ho'.symm, hd'.symm⟩
    rw [hresult]
    cases hended with
    | refused he =>
      rw [ho] at he
      cases he
    | guarded ho' hfits' hp hatomic =>
      obtain ⟨-, rfl⟩ := hsame ho' hfits'
      rw [hfree.guarded hp] at hatomic
      cases hatomic
    | lost ho' hfits' htear hlt =>
      obtain ⟨rfl, -⟩ := hsame ho' hfits'
      exact absurd (hfree.powered _ htear) (Nat.not_le.mpr hlt)
    | full ho' hfits' hp hpersistent hpos hlt =>
      obtain ⟨rfl, rfl⟩ := hsame ho' hfits'
      exact absurd (hfree.roomy hp hpersistent hpos) (Nat.not_le.mpr hlt)
    | done => exact ⟨_, rfl⟩

/-- A transfer whose checks pass fails only for want of power, room or permission. -/
theorem transfer_hindered (h : s.Sound) (ho : t.output s.card.memory.store .atomic = .ok o)
    (he : (step (t.command p) s).result = .error e) : e.Hinders t.destination := by
  obtain ⟨r, hended, hresult, _⟩ := ended_transfer h p t
  rw [hresult] at he
  cases hended with
  | refused he' =>
    rw [ho] at he'
    cases he'
  | guarded =>
    cases he
    exact .inr (.inr rfl)
  | lost _ _ _ _ hloss =>
    cases he
    exact .inl hloss
  | full _ _ _ _ _ _ hfull =>
    cases he
    exact .inr (.inl hfull)
  | done => cases he

/-- Unless it is hindered, a transfer succeeds exactly if its checks pass. -/
theorem transfer_isOk_iff_of_plain (h : s.Sound)
    (hplain : ∀ e, (step (t.command p) s).result = .error e → ¬e.Hinders t.destination) :
    (∃ reply, (step (t.command p) s).result = .ok reply) ↔
      ∃ o, t.output s.card.memory.store .atomic = .ok o := by
  constructor
  · rintro ⟨reply, hok⟩
    obtain ⟨o, _, ho, _⟩ := transfer_done h hok
    exact ⟨o, ho⟩
  · rintro ⟨o, ho⟩
    rcases hresult : (step (t.command p) s).result with e | reply
    · exact absurd (transfer_hindered h ho hresult) (hplain e hresult)
    · exact ⟨reply, rfl⟩

end Session

end SmartCard
