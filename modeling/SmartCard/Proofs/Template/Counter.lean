-- SUMMARY: What the updates of a try counter do to its two bytes, with and without a tear.
import SmartCard.Proofs.Memory.Frame
import SmartCard.Template.TryCounter

/-!
# Try counters in memory

The array of a try counter never gets into the undo log, so that only the counter's own updates
change it (`TryCounter.Holds`). Each update ends with the byte of the remaining tries. Hence a torn
update, which writes all but some of its last bytes, leaves the remaining tries as they were.
-/

namespace SmartCard

variable {c : Config} {m m' : Memory} {array : ArrayRef}

/-! ## Unconditional writes -/

namespace Write

/-- How a write in range ends on the unconditional lane. -/
inductive Landed (array : ArrayRef) (offset : Nat) (bytes : List UInt8) (m : Memory) :
    Except Fault Unit × Memory → Prop where
  | whole {s : Store} {tear : Option UInt64} :
      m.store.restoreBytes array offset bytes = .ok s →
      Landed array offset bytes m (.ok (), { m with store := { s with tear := tear } })
  | torn {s : Store} {count : Nat} {e : Fault} :
      count < bytes.length → m.store.restoreBytes array offset (bytes.take count) = .ok s →
      e.isPowerLoss = true →
      Landed array offset bytes m
        (.error e, Memory.recovered { m with store := { s with tear := none } })

theorem landed (h : m.Sound c) (hs : m.Settled) {d : Descriptor}
    (hd : m.store.descriptor? array = some d)
    {offset : Nat} {bytes : List UInt8} (hfits : offset + bytes.length ≤ d.byteLength) :
    Landed array offset bytes m ((Memory.writeUnconditional array offset bytes).exec m) := by
  let w : Write := ⟨.unconditional, array, offset, bytes⟩
  have hexec : (Memory.writeUnconditional array offset bytes).exec m = w.concluded m := by
    have hlogs : w.logs m = .ok false := rfl
    have hact := exec_act h hs w
    rw [issued_of_unlogged hlogs, ending_of_unlogged hs] at hact
    exact hact
  rw [hexec]
  have hw := w.written m
  have hstored : w.stored m = { m with store := (w.stored m).store } := rfl
  unfold concluded
  rw [hstored]
  generalize w.answer m = r at hw
  generalize (w.stored m).store = s at hw
  cases hw with
  | whole hput _ => exact .whole hput
  | torn _ hbudget hput => exact .torn hbudget hput rfl
  | @refused _ _ leading hprefix hput _ =>
    have hlength : leading.length ≤ bytes.length := hprefix.length_le
    have hfits' : offset + leading.length ≤ d.byteLength := by omega
    obtain ⟨s', hs'⟩ := h.store.restoreBytes_isOk hd hfits'
    rw [hput] at hs'
    cases hs'

end Write

/-! ## Counters -/

namespace TryCounter

/-- What every counter array is made as. -/
def descriptor : Descriptor := ⟨.byte, 2, .persistent, false⟩

/-- A counter in a memory: its array is out of the log and holds the limit and the remaining tries.
-/
structure Holds (c : Config) (array : ArrayRef) (limit left : UInt8) (m : Memory) : Prop where
  sound : m.Sound c
  settled : m.Settled
  descriptor : m.store.descriptor? array = some TryCounter.descriptor
  unlogged : m.Unlogged array
  limit : m.store.byte? array 0 = some limit
  left : m.store.byte? array 1 = some left

variable {limit left : UInt8}

theorem Holds.isPersistent (h : Holds c array limit left m) : m.store.IsPersistent array :=
  ⟨_, h.descriptor, rfl⟩

/-- A counter that is spared stays as it is. -/
theorem Holds.spared (h : Holds c array limit left m) (hspares : Memory.Spares array m m')
    (hsound : m'.Sound c) (hsettled : m'.Settled) : Holds c array limit left m' where
  sound := hsound
  settled := hsettled
  descriptor := hspares.descriptor.trans h.descriptor
  unlogged := hspares.unlogged
  limit := (hspares.byte 0).trans h.limit
  left := (hspares.byte 1).trans h.left

theorem byteAt_eq_ok (h : m.Sound c) {i : Nat} {b : UInt8} (hb : m.store.byte? array i = some b) :
    byteAt m array i = .ok b := by
  unfold Store.byte? at hb
  rcases hfound : m.store.table.find? array with _ | cell
  · rw [hfound] at hb
    cases hb
  · rw [hfound, Option.bind_some] at hb
    obtain ⟨hlt, hget⟩ := List.getElem?_eq_some_iff.mp hb
    have hread : m.store.read array i 1 = .ok [b] := by
      refine Store.read_eq_ok_iff.mpr
        ⟨cell, h.store.cell_iff.mpr hfound, Cell.read_eq_ok_iff.mpr ⟨hlt, ?_⟩⟩
      rw [List.drop_eq_getElem_cons hlt, hget]
      rfl
    unfold byteAt
    rw [hread]
    rfl

theorem Holds.limit_eq (h : Holds c array limit left m) : TryCounter.limit m array = .ok limit :=
  byteAt_eq_ok h.sound h.limit

theorem Holds.remaining_eq (h : Holds c array limit left m) : remaining m array = .ok left :=
  byteAt_eq_ok h.sound h.left

/-- The bytes of a counter after an overwrite. -/
theorem Holds.overwritten (h : Holds c array limit left m) {offset : Nat} {bytes : List UInt8}
    {s : Store} {tear : Option UInt64} (hs : m.store.restoreBytes array offset bytes = .ok s)
    {limit' left' : UInt8}
    (hlimit : (if offset ≤ 0 ∧ 0 < offset + bytes.length then bytes[0 - offset]? else some limit) =
      some limit')
    (hleft : (if offset ≤ 1 ∧ 1 < offset + bytes.length then bytes[1 - offset]? else some left) =
      some left') :
    Holds c array limit' left' { m with store := { s with tear := tear } } := by
  have hd := Store.descriptor?_restoreBytes hs
  have hdescriptor : ∀ other,
      Store.descriptor? { s with tear := tear } other = m.store.descriptor? other :=
    fun other => congrFun hd other
  have hb := Store.byte?_restoreBytes hs array
  refine ⟨h.sound.withStore ((h.sound.store.restoreBytes hs).withTear tear) fun hold => ?_,
    h.settled, ?_,
    h.unlogged, ?_, ?_⟩
  · rw [hdescriptor]
    exact hold
  · rw [hdescriptor]
    exact h.descriptor
  · apply (hb 0).trans
    rw [h.limit]
    simpa using hlimit
  · apply (hb 1).trans
    rw [h.left]
    simpa using hleft

/-- Recovery leaves a counter as it is. -/
theorem Holds.recovered (h : Holds c array limit left m) : Holds c array limit left m.recovered :=
  h.spared (h.sound.spares_recovered h.isPersistent h.unlogged) h.sound.recovered
    (Memory.settled_of_idle rfl)

/-- How an update of a counter with `left` tries ends: the counter is as asked, or power was lost
and the remaining tries are as before. -/
inductive Updated (c : Config) (array : ArrayRef) (left limit' left' : UInt8) :
    Except Fault Unit × Memory → Prop where
  | whole {m' : Memory} :
      Holds c array limit' left' m' → Updated c array left limit' left' (.ok (), m')
  | torn {limit : UInt8} {e : Fault} {m' : Memory} :
      e.isPowerLoss = true → Holds c array limit left m' →
      Updated c array left limit' left' (.error e, m')

theorem Holds.update_left (h : Holds c array limit left m) (n : UInt8) :
    Updated c array left limit n ((Memory.writeUnconditional array 1 [n]).exec m) := by
  have hlanded : Write.Landed array 1 [n] m ((Memory.writeUnconditional array 1 [n]).exec m) :=
    Write.landed h.sound h.settled h.descriptor (Nat.le_refl 2)
  generalize (Memory.writeUnconditional array 1 [n]).exec m = r at hlanded
  cases hlanded with
  | whole hs => exact .whole (h.overwritten hs rfl rfl)
  | @torn s count e hcount hs he =>
    have hnone : count = 0 := Nat.lt_one_iff.mp hcount
    subst hnone
    exact .torn he (h.overwritten hs rfl rfl).recovered

theorem Holds.update_both (h : Holds c array limit left m) (n : UInt8) :
    Updated c array left n n ((Memory.writeUnconditional array 0 [n, n]).exec m) := by
  have hlanded : Write.Landed array 0 [n, n] m
      ((Memory.writeUnconditional array 0 [n, n]).exec m) :=
    Write.landed h.sound h.settled h.descriptor (Nat.le_refl 2)
  generalize (Memory.writeUnconditional array 0 [n, n]).exec m = r at hlanded
  cases hlanded with
  | whole hs => exact .whole (h.overwritten hs rfl rfl)
  | @torn s count e hcount hs he =>
    rcases Nat.le_one_iff_eq_zero_or_eq_one.mp (Nat.lt_succ_iff.mp hcount) with rfl | rfl
    · exact .torn he (h.overwritten hs rfl rfl).recovered
    · exact .torn he (h.overwritten hs rfl rfl).recovered

/-! ## Updates -/

/-- Spending one of the tries that are left. -/
theorem Holds.exec_spend (h : Holds c array limit left m) (hleft : left ≠ 0) :
    ∃ r m', (spend array).exec m = (r.map fun _ => left - 1, m') ∧
      Updated c array left limit (left - 1) (r, m') := by
  have hupdated := h.update_left (left - 1)
  generalize hwrite : (Memory.writeUnconditional array 1 [left - 1]).exec m = r at hupdated
  refine ⟨r.1, r.2, ?_, hupdated⟩
  unfold spend
  rw [Act.exec_query_bind_of_ok (remaining · array) h.remaining_eq]
  simp only [hleft, if_false, Act.exec_bind, hwrite]
  rcases r with ⟨_ | _, m'⟩ <;> rfl

/-- Giving all tries back. -/
theorem Holds.exec_restoreTries (h : Holds c array limit left m) :
    Updated c array left limit limit ((restoreTries array).exec m) := by
  unfold restoreTries
  rw [Act.exec_query_bind_of_ok (TryCounter.limit · array) h.limit_eq]
  exact h.update_left limit

/-- Refilling with a new limit, which must not be 0. -/
theorem Holds.exec_refill (h : Holds c array limit left m) (n : UInt8) :
    (n = 0 ∧ (refill array n).exec m = (.error .zeroTryLimit, m)) ∨
      Updated c array left n n ((refill array n).exec m) := by
  unfold refill checkLimit
  by_cases hn : n = 0
  · refine .inl ⟨hn, ?_⟩
    rw [if_pos hn]
    rfl
  · rw [if_neg hn]
    exact .inr (h.update_both n)

/-- A new array is out of the log. -/
theorem unlogged_allocate (h : m.Sound c) {d : Descriptor} {s : Store}
    (hs : m.store.allocate d = .ok (array, s)) : Memory.Unlogged array { m with store := s } := by
  rintro e he rfl
  obtain ⟨d', hd', _⟩ := h.entries he
  rw [Store.freeRef_eq_ok (Store.freeRef_of_allocate hs)] at hd'
  cases hd'

/-- A new counter holds the limit and as many tries. -/
theorem holds_make (h : m.Sound c) (hs : m.Settled)
    (hmake : (make limit).exec m = (.ok array, m')) :
    Holds c array limit limit m' := by
  unfold make at hmake
  rcases hlimit : checkLimit limit with e | _
  · rw [Act.exec_query_bind_of_error (fun _ => checkLimit limit) hlimit] at hmake
    cases hmake
  rw [Act.exec_query_bind_of_ok (fun _ => checkLimit limit) hlimit] at hmake
  rcases hallocate : m.store.allocate ⟨.byte, 2, .persistent, false⟩ with e | ⟨fresh, s⟩
  · rw [Act.exec_bind_of_error (Memory.exec_allocate_of_error hallocate)] at hmake
    cases hmake
  rw [Act.exec_bind_of_ok (Memory.exec_allocate_of_ok hallocate)] at hmake
  have hempty : Holds c fresh 0 0 { m with store := s } :=
    { sound := Operation.sound_allocate h hallocate
      settled := hs
      descriptor := by rw [h.store.descriptor?_allocate hallocate, if_pos rfl]; rfl
      unlogged := unlogged_allocate h hallocate
      limit := by rw [h.store.byte?_allocate hallocate, if_pos rfl]; rfl
      left := by rw [h.store.byte?_allocate hallocate, if_pos rfl]; rfl }
  rw [Act.exec_bind] at hmake
  rcases hempty.exec_refill limit with ⟨_, hzero⟩ | hupdated
  · rw [hzero] at hmake
    cases hmake
  · rcases hrefill : (refill fresh limit).exec { m with store := s } with ⟨r, m''⟩
    rw [hrefill] at hmake hupdated
    cases hupdated with
    | whole hholds =>
      cases hmake
      exact hholds
    | torn => cases hmake

end TryCounter

end SmartCard
