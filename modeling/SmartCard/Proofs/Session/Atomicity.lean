-- SUMMARY: Atomic commands outside transactions are all or nothing, whatever tear is armed.
import SmartCard.Proofs.Elements
import SmartCard.Proofs.Memory.Atomicity
import SmartCard.Proofs.Session.Refusals
import SmartCard.Proofs.Session.Rollback

/-!
# Atomic commands

Some commands write to a persistent array as one unit: atomic copies and fills, clearing, and all
element and packed writes if the array is integrity-sensitive (`Command.IsAtomicOn`). What they
write is said in terms of their arguments (`Command.Asks`). Without an open transaction such a
command is all or nothing (`Session.all_or_nothing`).
-/

namespace SmartCard

variable {μ : Type}

namespace Command

/-- Whether a command writes to an array as one unit. -/
def IsAtomicOn (s : Store) (array : ArrayRef) : Command μ → Prop
  | .copy .atomic _ _ _ destination _ => destination = array
  | .fill .atomic destination _ _ _ _ => destination = array
  | .clearArray destination => destination = array
  | .setElement destination _ _ | .loadElements destination _ | .setShort destination _ _
  | .setInt destination _ _ => destination = array ∧ ∃ d, s.descriptor? array = some d ∧
    d.sensitive = true
  | _ => False

/-- The bytes that a command is to write into an array, and from which byte on. -/
inductive Asks (s : Store) : Command μ → ArrayRef → Nat → List UInt8 → Prop where
  | setElement {array : ArrayRef} {d : Descriptor} {index : Int16} {value : Int32} {i : Nat} :
      s.descriptor? array = some d → index? index = some i →
      Asks s (.setElement array index value) array (i * d.kind.width) (d.kind.encode value)
  | loadElements {array : ArrayRef} {d : Descriptor} {values : List Int32} :
      s.descriptor? array = some d →
      Asks s (.loadElements array values) array 0 (values.flatMap d.kind.encode)
  | setShort {array : ArrayRef} {offset value : Int16} {start : Nat} :
      index? offset = some start →
      Asks s (.setShort array offset value) array start (BigEndian.split value.toUInt16.toUInt32 2)
  | setInt {array : ArrayRef} {offset : Int16} {value : Int32} {start : Nat} :
      index? offset = some start →
      Asks s (.setInt array offset value) array start (BigEndian.split value.toUInt32 4)
  | clearArray {array : ArrayRef} {d : Descriptor} :
      s.descriptor? array = some d →
      Asks s (.clearArray array) array 0 (List.replicate d.byteLength 0)
  | copy {source destination : ArrayRef} {sourceOffset sourceLength destinationOffset : Int16}
      {x y : Descriptor} {start count target : Nat} {bytes : List UInt8} :
      s.descriptor? source = some x → s.descriptor? destination = some y →
      index? sourceOffset = some start → index? sourceLength = some count →
      index? destinationOffset = some target →
      s.read source (start * x.kind.width) (count * x.kind.width) = .ok bytes →
      Asks s (.copy .atomic source sourceOffset sourceLength destination destinationOffset)
        destination (target * y.kind.width) bytes
  | fill {array valueArray : ArrayRef} {offset length valueOffset : Int16} {d : Descriptor}
      {start count value : Nat} {element : List UInt8} :
      s.descriptor? array = some d → index? offset = some start → index? length = some count →
      index? valueOffset = some value →
      s.read valueArray (value * d.kind.width) d.kind.width = .ok element →
      Asks s (.fill .atomic array offset length valueArray valueOffset) array (start * d.kind.width)
        (List.replicate count element).flatten

/-! ## Requests of atomic commands -/

variable {c : Config} {m : Memory}

theorem sensitiveCell_eq_ok {s : Store} {array : ArrayRef} {cell : Cell}
    (h : Integrity.sensitiveCell s array = .ok cell) : s.cell .sensitive array = .ok cell := by
  unfold Integrity.sensitiveCell at h
  obtain ⟨found, hfound, h⟩ := bind_eq_ok_iff.mp h
  split at h
  · cases h
    exact hfound
  · cases h

/-- A request of an atomic command: nothing, if there is nothing to write, or a write that is
logged. -/
inductive AtomicRequest (m : Memory) (array : ArrayRef) (offset : Nat) (bytes : List UInt8) :
    List Operation → Prop where
  | nothing : bytes = [] → AtomicRequest m array offset bytes []
  | write {lane : Lane} :
      Write.logs ⟨lane, array, offset, bytes⟩ m = .ok true →
      AtomicRequest m array offset bytes [.write ⟨lane, array, offset, bytes⟩]

theorem logs_atomic (h : m.store.Sound c) {array : ArrayRef} (hp : m.store.IsPersistent array)
    (offset : Nat) (bytes : List UInt8) :
    Write.logs ⟨.atomic, array, offset, bytes⟩ m = .ok true := by
  obtain ⟨d, hd, hpersistent⟩ := hp
  rw [Write.logs, h.descriptor_iff.mpr hd, Except.map, hpersistent]

theorem logs_participating (h : m.store.Sound c) {array : ArrayRef}
    (hp : m.store.IsPersistent array)
    (hsensitive : ∃ d, m.store.descriptor? array = some d ∧ d.sensitive = true) (offset : Nat)
    (bytes : List UInt8) : Write.logs ⟨.participating, array, offset, bytes⟩ m = .ok true := by
  obtain ⟨d, hd, hpersistent⟩ := hp
  obtain ⟨d', hd', hs⟩ := hsensitive
  rw [hd, Option.some.injEq] at hd'
  subst hd'
  have hrequires : d.requiresAtomicWrites = true := Bool.and_eq_true_iff.mpr ⟨hs, hpersistent⟩
  rw [Write.logs, h.descriptor_iff.mpr hd]
  simp only [Except.map, hpersistent, hrequires, Bool.or_true, Bool.and_self]

theorem atomicRequest_writes (h : m.store.Sound c) {array : ArrayRef}
    (hp : m.store.IsPersistent array) (offset : Nat) (bytes : List UInt8) :
    AtomicRequest m array offset bytes (writes .atomic array offset bytes) := by
  unfold writes
  cases bytes with
  | nil => exact .nothing rfl
  | cons first more => exact .write (logs_atomic h hp offset _)

variable [Matcher μ]

/-- An atomic command asks for the bytes that its arguments say, as one write that is logged. -/
theorem request_atomic {s : Session μ} (h : s.card.memory.store.Sound c) {array : ArrayRef}
    (hp : s.card.memory.store.IsPersistent array) {command : Command μ}
    (hatomic : command.IsAtomicOn s.card.memory.store array) {ops : List Operation}
    (hr : command.request s = .ok ops) :
    ∃ offset bytes, command.Asks s.card.memory.store array offset bytes ∧
      AtomicRequest s.card.memory array offset bytes ops := by
  cases command
  case setElement destination index value =>
    obtain ⟨rfl, hsensitive⟩ := hatomic
    obtain ⟨⟨d, start⟩, hslot, hr⟩ := bind_eq_ok_iff.mp hr
    obtain ⟨i, hd, hi, _, rfl⟩ := Memory.slot_eq_ok_iff.mp hslot
    cases hr
    exact ⟨_, _, .setElement (h.descriptor_iff.mp hd) hi,
      .write (logs_participating h hp hsensitive _ _)⟩
  case loadElements destination values =>
    obtain ⟨rfl, hsensitive⟩ := hatomic
    change (if maxArrayLength < values.length then _ else _) = _ at hr
    split at hr
    · cases hr
    · obtain ⟨⟨d, start⟩, hslot, hr⟩ := bind_eq_ok_iff.mp hr
      obtain ⟨_, hd, _⟩ := Memory.slot_eq_ok_iff.mp hslot
      refine ⟨_, _, .loadElements (h.descriptor_iff.mp hd), ?_⟩
      cases values with
      | nil =>
        cases hr
        exact .nothing rfl
      | cons first more =>
        cases hr
        exact .write (logs_participating h hp hsensitive _ _)
  case setShort destination offset value =>
    obtain ⟨rfl, hsensitive⟩ := hatomic
    obtain ⟨start, hstart, hr⟩ := bind_eq_ok_iff.mp hr
    obtain ⟨_, _, _, hoffset, _⟩ := Packing.window_eq_ok_iff.mp hstart
    cases hr
    exact ⟨_, _, .setShort hoffset, .write (logs_participating h hp hsensitive _ _)⟩
  case setInt destination offset value =>
    obtain ⟨rfl, hsensitive⟩ := hatomic
    obtain ⟨start, hstart, hr⟩ := bind_eq_ok_iff.mp hr
    obtain ⟨_, _, _, hoffset, _⟩ := Packing.window_eq_ok_iff.mp hstart
    cases hr
    exact ⟨_, _, .setInt hoffset, .write (logs_participating h hp hsensitive _ _)⟩
  case clearArray destination =>
    cases hatomic
    obtain ⟨cell, hcell, hr⟩ := bind_eq_ok_iff.mp hr
    have hfound := h.cell_iff.mp (sensitiveCell_eq_ok hcell)
    have hd : s.card.memory.store.descriptor? array = some cell.descriptor :=
      Table.descriptor?_eq_some_iff.mpr ⟨cell, hfound, rfl⟩
    refine ⟨_, _, .clearArray hd, ?_⟩
    by_cases hsize : cell.descriptor.byteLength = 0
    · dsimp only at hr
      rw [if_pos hsize] at hr
      cases hr
      exact .nothing (by rw [hsize]; rfl)
    · dsimp only at hr
      rw [if_neg hsize] at hr
      cases hr
      exact .write (logs_atomic h hp _ _)
  case copy p source sourceOffset sourceLength destination destinationOffset =>
    cases p
    case atomic =>
      cases hatomic
      obtain ⟨plan, hplan, hr⟩ := bind_eq_ok_iff.mp hr
      obtain ⟨bytes, hbytes, hr⟩ := bind_eq_ok_iff.mp hr
      obtain ⟨x, y, start, count, target, hx, hy, hstart, hcount, htarget, _, _, _, _, hplan⟩ :=
        Range.Copy.plan_eq_ok hplan
      obtain ⟨dx, hdx, _, rfl⟩ := Range.operand_eq_ok_iff.mp hx
      obtain ⟨dy, hdy, _, rfl⟩ := Range.operand_eq_ok_iff.mp hy
      rw [hplan] at hbytes hr
      cases hr
      have hdx' := h.descriptor_iff.mp hdx
      have hdy' := h.descriptor_iff.mp hdy
      exact ⟨_, _, .copy hdx' hdy' hstart hcount htarget hbytes, atomicRequest_writes h hp _ _⟩
    case nonAtomic => cases hatomic
  case fill p destination offset length valueArray valueOffset =>
    cases p
    case atomic =>
      cases hatomic
      obtain ⟨plan, hplan, hr⟩ := bind_eq_ok_iff.mp hr
      obtain ⟨element, helement, hr⟩ := bind_eq_ok_iff.mp hr
      obtain ⟨x, y, hx, _, _, hstart, hcount, hvalue, _, _, _, hwidth⟩ :=
        Range.Fill.plan_eq_ok hplan
      obtain ⟨d, hd, _, rfl⟩ := Range.operand_eq_ok_iff.mp hx
      rw [hwidth] at helement hr
      cases hr
      exact ⟨_, _, .fill (h.descriptor_iff.mp hd) hstart hcount hvalue helement,
        atomicRequest_writes h hp _ _⟩
    case nonAtomic => cases hatomic
  all_goals cases hatomic

omit [Matcher μ] in
theorem isRestore_of_atomic {s : Store} {array : ArrayRef} {command : Command μ}
    (hatomic : command.IsAtomicOn s array) : command.isRestore = false := by
  cases command
  case restore => cases hatomic
  all_goals rfl

end Command

namespace Session

variable [Matcher μ] {s : Session μ}

/-- The ways in which an atomic command on an array can end: with all its bytes written, refused
without any effect, or with a loss of power that costs no persistent byte. -/
inductive AllOrNothing (s : Session μ) (command : Command μ) (array : ArrayRef) :
    Except Fault Reply → Card → Prop where
  | whole {reply : Reply} {card : Card} {offset : Nat} {bytes : List UInt8} :
      command.Asks s.card.memory.store array offset bytes →
      Store.Overwritten array offset bytes s.card.memory.store card.memory.store →
      AllOrNothing s command array (.ok reply) card
  | refused {e : Fault} : e.isPowerLoss = false → AllOrNothing s command array (.error e) s.card
  | lost {e : Fault} {card : Card} :
      e.isPowerLoss = true → s.card.memory.LostPower card.memory →
      AllOrNothing s command array (.error e) card

omit [Matcher μ] in
/-- An atomic command ends as its write does. -/
theorem allOrNothing_of_memory {command : Command μ} {array : ArrayRef} {offset : Nat}
    {bytes : List UInt8}
    (hasks : command.Asks s.card.memory.store array offset bytes) {result : Except Fault Reply}
    {r : Except Fault Unit × Memory} (hresult : result.map (fun _ => ()) = r.1)
    (h : Memory.AllOrNothing array offset bytes s.card.memory r) :
    AllOrNothing s command array result { s.card with memory := r.2 } := by
  cases h with
  | whole hwritten =>
    rcases result with e | reply
    · cases hresult
    · exact .whole hasks hwritten
  | refused he =>
    rcases result with e | reply
    · cases hresult
      exact .refused he
    · cases hresult
  | lost he hlost =>
    rcases result with e | reply
    · cases hresult
      exact .lost he hlost
    · cases hresult

omit [Matcher μ] in
/-- A card that is idle has its whole commit buffer. -/
theorem Sound.capacity_of_idle (h : s.Sound) (hidle : s.card.memory.transaction.isIdle = true) :
    s.card.unusedCommitCapacityExtended = s.card.config.commitCapacity ∧
      s.card.unusedCommitCapacity = s.card.maxCommitCapacity := by
  have hunused : s.card.memory.transaction.unusedCapacity = s.card.config.commitCapacity := by
    rw [h.memory.idle_eq hidle]
    exact UInt32.sub_zero _
  have hmax : s.card.memory.transaction.maxCapacity = s.card.config.commitCapacity :=
    h.memory.max_eq
  refine ⟨hunused, ?_⟩
  unfold Card.unusedCommitCapacity Card.unusedCommitCapacityExtended Card.maxCommitCapacity
  rw [hunused, hmax]

/-- Atomic commands are all or nothing. Without an open transaction such a command on a persistent
array either writes all its bytes, or fails and leaves the card as it was, or loses power and leaves
the persistent arrays as they were, the transient ones zero and the tear disarmed. No transaction is
open afterwards, and the commit buffer is empty. -/
theorem all_or_nothing (hreachable : s.Reachable) (hdepth : s.card.transactionDepth = 0)
    {array : ArrayRef} (hp : s.card.memory.store.IsPersistent array) {command : Command μ}
    (hatomic : command.IsAtomicOn s.card.memory.store array) :
    AllOrNothing s command array (step command s).result (step command s).state.card ∧
      (step command s).state.card.transactionDepth = 0 ∧
      (step command s).state.card.unusedCommitCapacityExtended = s.card.config.commitCapacity ∧
      (step command s).state.card.unusedCommitCapacity =
        (step command s).state.card.maxCommitCapacity := by
  have h := hreachable.sound
  have hidle := depth_eq_zero_iff.mp hdepth
  have hrestore := Command.isRestore_of_atomic hatomic
  have hcard := h.card_step hrestore
  have hresult := h.result_step hrestore
  have hends : AllOrNothing s command array (step command s).result (step command s).state.card ∧
      (step command s).state.card.memory.transaction.isIdle = true := by
    rw [hcard]
    rcases hr : command.request s with e | ops
    · rw [hr] at hresult
      have hrefused := (command.isRefusal_request s e hr).1
      rcases hends : (step command s).result with e' | reply
      · rw [hends] at hresult
        cases hresult
        exact ⟨.refused hrefused, hidle⟩
      · rw [hends] at hresult
        cases hresult
    · rw [hr] at hresult
      obtain ⟨offset, bytes, hasks, hrequest⟩ := Command.request_atomic h.memory.store hp hatomic hr
      cases hrequest with
      | nothing hnone =>
        subst hnone
        exact ⟨allOrNothing_of_memory hasks hresult
          (.whole (Write.overwritten_nil array offset _)), hidle⟩
      | @write lane hlogs =>
        rw [Operation.carry_ok, Operation.run_singleton] at hresult ⊢
        exact ⟨allOrNothing_of_memory hasks hresult (Write.allOrNothing h.memory hidle hlogs),
          Write.isIdle_act h.memory hidle _⟩
  have hcapacity := (h.step command).capacity_of_idle hends.2
  refine ⟨hends.1, depth_eq_zero_iff.mpr hends.2, ?_, hcapacity.2⟩
  rw [hcapacity.1, hcard]

/-- A sensitive byte array whose element 1 is 7, and a tear ahead. -/
def sensitiveArray : Session ConstantScore :=
  (run fresh [.makeSensitive .byte 0 4, .setElement ⟨1⟩ 1 7, .injectPowerLoss 2]).2

/-- A tear in the middle of a clearing leaves the array as it was. -/
theorem all_or_nothing_clearArray :
    (step (.clearArray ⟨1⟩) sensitiveArray).state.card.memory.store.byte? ⟨1⟩ 1 = some 7 := by
  have hreachable : sensitiveArray.Reachable := reachable_fresh.run _
  have hpersistent : sensitiveArray.card.memory.store.IsPersistent ⟨1⟩ :=
    ⟨⟨.byte, 4, .persistent, true⟩, by decide +kernel, rfl⟩
  have hatomic : (Command.clearArray ⟨1⟩ : Command ConstantScore).IsAtomicOn
    sensitiveArray.card.memory.store ⟨1⟩ := rfl
  have hresult : (step (.clearArray ⟨1⟩) sensitiveArray).result = .error (.tear 2 4 ⟨1⟩) := by rfl
  obtain ⟨hends, _⟩ := all_or_nothing hreachable (by decide +kernel) hpersistent hatomic
  rw [hresult] at hends
  have hbyte : sensitiveArray.card.memory.store.byte? ⟨1⟩ 1 = some 7 := by decide +kernel
  cases hends with
  | lost _ hlost => rw [hlost.persistent hpersistent, hbyte]

end Session

end SmartCard
