-- SUMMARY: The tear budget: which operations spend it, how much of it, and what they leave when it runs out.
import SmartCard.Proofs.Memory.Accounts
import SmartCard.Proofs.Memory.Alongside
import SmartCard.Proofs.Memory.Atomicity
import SmartCard.Proofs.Memory.Capacity
import SmartCard.Proofs.Memory.InRange
import Mathlib.Algebra.Ring.Nat

/-!
# The tear budget

An armed tear has a budget of bytes. Only what an operation hands to the store is paid out of it
(`Operation.bytes`): a rollback, the clearing of transient arrays and a flip of bits go past the
tear, and a write that finds no room for its before-image does not get that far. Operations that the
budget covers leave it reduced by what they handed over, and the first write that it does not cover
tears and uses it up (`Operation.Spends`).
-/

namespace SmartCard

variable {c : Config} {m m' : Memory} {w : Write} {op : Operation} {ops : List Operation}
  {trace : List (Memory × Operation)}

namespace Operation

/-- The bytes that an operation hands to the store, if it is a write that gets so far. -/
def bytes (m : Memory) : Operation → Nat
  | .write w =>
    match w.issued m with
    | .ok _ => w.bytes.length
    | .error _ => 0
  | _ => 0

/-- The bytes that several operations hand to the store. -/
def bytesOf (trace : List (Memory × Operation)) : Nat :=
  (trace.map fun step => step.2.bytes step.1).sum

@[simp] theorem bytesOf_cons (step : Memory × Operation) :
    bytesOf (step :: trace) = step.2.bytes step.1 + bytesOf trace := List.sum_cons

theorem bytesOf_append (trace trace' : List (Memory × Operation)) :
    bytesOf (trace ++ trace') = bytesOf trace + bytesOf trace' := by
  rw [bytesOf, List.map_append, List.sum_append]
  rfl

theorem bytes_of_issued (hm : w.issued m = .ok m') : (Operation.write w).bytes m = w.bytes.length :=
  by
  rw [bytes, hm]

theorem bytes_of_refused {e : Fault} (he : w.issued m = .error e) :
    (Operation.write w).bytes m = 0 := by
  rw [bytes, he]

/-- How operations that end with `r` have met the tear that was ahead of the memory `m`. If the
budget covers the bytes that they handed over, these are spent, and none of them unless the
operations succeeded. Otherwise the write that goes beyond the budget tears. -/
inductive Spends (m : Memory) (trace : List (Memory × Operation)) :
    Except Fault Unit × Memory → Prop where
  | covered {r : Except Fault Unit} {m' : Memory} :
      failsBy Fault.isPowerLoss r = false → (r = .ok () ∨ bytesOf trace = 0) →
      (∀ budget, m.store.tear = some budget → bytesOf trace ≤ budget.toNat) →
      m'.store.tear = m.store.tear.map (fun budget => budget - UInt64.ofNat (bytesOf trace)) →
      Spends m trace (r, m')
  | torn {found m' : Memory} {w : Write} {budget : UInt64} :
      m.store.tear = some budget → found.store.tear = some budget →
      (found, .write w) ∈ trace → w.issued found = .ok m' → budget.toNat < w.bytes.length →
      w.answer m' = .error (.tear budget.toNat w.bytes.length w.array) →
      bytesOf trace = w.bytes.length →
      Spends m trace (.error (.tear budget.toNat w.bytes.length w.array), (w.stored m').recovered)

namespace Spends

/-- Whoever hands nothing to the store leaves the tear alone. -/
theorem tear_of_free {r : Except Fault Unit} (h : Spends m trace (r, m'))
    (hfree : bytesOf trace = 0) : m'.store.tear = m.store.tear := by
  cases h with
  | covered _ _ _ hleft =>
    rw [hleft, hfree]
    rcases m.store.tear with _ | budget
    · rfl
    · exact congrArg some (UInt64.sub_zero budget)
  | torn _ _ _ _ hlt _ hsum => omega

/-- Operations that fail without losing power have handed nothing to the store. -/
theorem free_of_error {e : Fault} (h : Spends m trace (.error e, m'))
    (hkept : e.isPowerLoss = false) : bytesOf trace = 0 := by
  cases h with
  | covered _ hfree => exact hfree.resolve_left nofun
  | torn => cases hkept

/-- Operations that hand nothing to the store and leave the tear alone. -/
theorem free {r : Except Fault Unit} (hfree : bytesOf trace = 0)
    (hloss : failsBy Fault.isPowerLoss r = false) (htear : m'.store.tear = m.store.tear) :
    Spends m trace (r, m') := by
  refine .covered hloss (.inr hfree) (fun budget _ => ?_) ?_
  · rw [hfree]
    exact Nat.zero_le _
  · rw [htear, hfree]
    rcases m.store.tear with _ | budget
    · rfl
    · exact congrArg some (UInt64.sub_zero budget).symm

end Spends

end Operation

open Operation

/-! ## Writes -/

namespace Write

/-- A write that is refused has not met the tear. -/
theorem isPowerLoss_of_issued {e : Fault} (he : w.issued m = .error e) : e.isPowerLoss = false := by
  rcases hlogs : w.logs m with e' | _ | _
  · rw [issued_of_refusal hlogs] at he
    cases he
    exact (logs_isRefusal hlogs).1
  · rw [issued_of_unlogged hlogs] at he
    cases he
  · rw [issued_of_logged hlogs] at he
    exact isPowerLoss_of_logged he

/-- A write that is done has been covered, and is paid for. -/
theorem tear_stored (hanswer : w.answer m = .ok ()) :
    (∀ budget, m.store.tear = some budget → w.bytes.length ≤ budget.toNat) ∧
      (w.stored m).store.tear =
        m.store.tear.map fun budget => budget - UInt64.ofNat w.bytes.length := by
  have hwritten := w.written m
  rw [hanswer] at hwritten
  generalize (w.stored m).store = s at hwritten
  cases hwritten with
  | whole _ hcovered => exact ⟨hcovered, rfl⟩

/-- A torn write has stored the bytes that were left in the budget. -/
theorem byte?_torn {left : UInt64} (htear : m.store.tear = some left)
    (hanswer : w.answer m = .error (.tear left.toNat w.bytes.length w.array)) (array : ArrayRef)
    (i : Nat) : (w.stored m).store.byte? array i =
      if w.array = array ∧ w.offset ≤ i ∧ i < w.offset + left.toNat then w.bytes[i - w.offset]?
      else m.store.byte? array i := by
  have hwritten := w.written m
  generalize w.answer m = r at hwritten hanswer
  generalize (w.stored m).store = s at hwritten ⊢
  cases hwritten with
  | whole => cases hanswer
  | @torn s' budget htear' hlt hput =>
    rw [htear, Option.some.injEq] at htear'
    subst htear'
    have hlength : (w.bytes.take left.toNat).length = left.toNat := by
      rw [List.length_take]
      omega
    have hbyte := Store.byte?_restoreBytes hput array i
    rw [hlength] at hbyte
    refine hbyte.trans ?_
    split
    next hwithin => exact List.getElem?_take_of_lt (by omega)
    next => rfl
  | refused _ _ hrefusal =>
    cases hanswer
    cases hrefusal.1

/-- What cannot be written although it lies within its array is torn. -/
theorem eq_tear_of_answer {before : List UInt8}
    (hread : m.store.read w.array w.offset w.bytes.length = .ok before) {e : Fault}
    (hanswer : w.answer m = .error e) :
    ∃ budget, m.store.tear = some budget ∧ budget.toNat < w.bytes.length ∧
      e = .tear budget.toNat w.bytes.length w.array := by
  have hloss := isPowerLoss_of_read hread hanswer
  have hwritten := w.written m
  rw [hanswer] at hwritten
  generalize (w.stored m).store = s at hwritten
  cases hwritten with
  | torn htear hlt _ => exact ⟨_, htear, hlt, rfl⟩
  | refused _ _ hrefusal =>
    rw [hrefusal.1] at hloss
    cases hloss

theorem spends_act (hw : w.InRange m.store) (h : m.Sound c) (hs : m.Settled) :
    Spends m [(m, .write w)] (w.act.exec m) := by
  rw [exec_act h hs]
  rcases hissued : w.issued m with e | m'
  · refine .free (bytes_of_refused hissued) (isPowerLoss_of_issued hissued) ?_
    split
    · exact h.restored.tear
    · rfl
  · have hbytes : bytesOf [(m, .write w)] = w.bytes.length := bytes_of_issued hissued
    have hstore := store_issued hissued
    obtain ⟨before, hread⟩ := hw.read h
    rw [← hstore] at hread
    rw [ending, concluded]
    rcases hanswer : w.answer m' with e | _
    · obtain ⟨budget, htear, hlt, rfl⟩ := eq_tear_of_answer hread hanswer
      rw [hstore] at htear
      have hrecovers : (Fault.tear budget.toNat w.bytes.length w.array).isPowerLoss = true := rfl
      simp only [hrecovers, if_true]
      rw [settled_eq (Memory.settled_of_idle rfl)]
      exact .torn htear htear (.head _) hissued hlt hanswer hbytes
    · obtain ⟨hcovered, hleft⟩ := tear_stored hanswer
      rw [hstore, ← hbytes] at hcovered hleft
      have hsettled : (w.stored m').settled.store.tear = (w.stored m').store.tear := by
        rw [store_settled]
      exact .covered rfl (.inl rfl) hcovered (hsettled.trans hleft)

end Write

/-! ## Operations -/

namespace Operation

/-- Whatever is not a write goes past the tear. -/
theorem tear_act (op : Operation) (h : m.Sound c) (hop : ∀ w, op ≠ .write w)
    (harm : ∀ budget, op ≠ .arm budget) :
    (op.act.exec m).2.store.tear = m.store.tear ∧
      failsBy Fault.isPowerLoss (op.act.exec m).1 = false := by
  cases op with
  | begin =>
    rw [act, Memory.exec_begin]
    split <;> exact ⟨rfl, rfl⟩
  | commit =>
    rw [act, Memory.exec_commit]
    split <;> exact ⟨rfl, rfl⟩
  | abort =>
    rw [act, h.exec_abort]
    split
    · exact ⟨rfl, rfl⟩
    · exact ⟨h.restored.tear, rfl⟩
  | write w => exact absurd rfl (hop w)
  | allocate d =>
    rw [exec_allocate]
    rcases hd : m.store.allocate d with e | ⟨array, s⟩
    · exact ⟨rfl, (checks_allocate _ _ _ hd).refusal.1⟩
    · exact ⟨h.store.tear_allocate hd, rfl⟩
  | reset =>
    rw [exec_reset h]
    exact ⟨h.restored.tear, rfl⟩
  | deselect => exact ⟨rfl, rfl⟩
  | arm budget => exact absurd rfl (harm budget)
  | flip array byte mask =>
    rw [exec_flip]
    rcases hf : m.store.flipBits array byte mask with e | s
    · exact ⟨rfl, (checks_flipBits _ _ _ _ _ hf).refusal.1⟩
    · exact ⟨Store.tear_flipBits hf, rfl⟩

theorem bytes_of_other (hop : ∀ w, op ≠ .write w) : op.bytes m = 0 := by
  cases op with
  | write w => exact absurd rfl (hop w)
  | _ => rfl

theorem spends_act (h : m.Sound c) (hop : ∀ w, op ≠ .write w) (harm : ∀ budget, op ≠ .arm budget) :
    Spends m [(m, op)] (op.act.exec m) := by
  obtain ⟨htear, hloss⟩ := tear_act op h hop harm
  exact .free (bytes_of_other hop) hloss htear

/-- A new array with a first write that lies within it. -/
theorem spends_enrolment (h : m.Sound c) (hs : m.Settled) {d : Descriptor}
    (hfree : m.store.freeRef = .ok w.array) (hfits : w.offset + w.bytes.length ≤ d.byteLength) :
    Spends m (Operation.trace m [.allocate d, .write w]) (run m [.allocate d, .write w]) := by
  obtain ⟨htear, hloss⟩ := tear_act (.allocate d) h nofun nofun
  rw [run, Operation.trace]
  rcases hd : m.store.allocate d with e | ⟨array, s⟩
  · rw [exec_allocate, hd] at htear hloss ⊢
    exact .free rfl hloss htear
  · have harray : w.array = array := by
      have hfree' := Store.freeRef_of_allocate hd
      rw [hfree, Except.ok.injEq] at hfree'
      exact hfree'
    have hrange : w.InRange s :=
      ⟨d, by rw [h.store.descriptor?_allocate hd, if_pos harray], hfits⟩
    have hwrite := Write.spends_act hrange (sound_allocate h hd) hs
    rw [exec_allocate, hd] at htear hloss ⊢
    dsimp only at htear ⊢
    rw [run_singleton, trace_singleton]
    have hbytes : bytesOf [(m, .allocate d), ({ m with store := s }, .write w)] =
        bytesOf [({ m with store := s }, .write w)] := Nat.zero_add _
    -- The allocation hands nothing to the store and leaves the tear, so that all is up to the write.
    generalize hr : (Operation.write w).act.exec { m with store := s } = r
    change Spends _ _ ((Operation.write w).act.exec { m with store := s }) at hwrite
    rw [hr] at hwrite
    cases hwrite with
    | covered hloss hspent hle hleft =>
      refine .covered hloss ?_ ?_ ?_
      all_goals rw [hbytes]
      · exact hspent
      · rw [← htear]
        exact hle
      · rw [← htear]
        exact hleft
    | torn htear' hfound hmem hissued hlt hanswer hsum =>
      exact .torn (htear ▸ htear') hfound (.tail _ hmem) hissued hlt hanswer (hbytes.trans hsum)

end Operation

end SmartCard
