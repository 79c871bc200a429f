-- SUMMARY: The totals are exact sums over the events they record, as long as no sum reaches the largest word.
import SmartCard.Proofs.Brackets
import SmartCard.Telemetry

/-!
# Exact totals

Totals saturate, but a run that reports less than a word can count does not get there. Each total
adds an amount for each event (`Totals.Adds`), so that it ends up with the sum of the amounts. The
totals of the range operations are kept in a list, with an entry for each entry point that was
called, and for no other (`Totals.keys_record`).
-/

namespace SmartCard

/-! ## Saturating sums -/

theorem addSaturating_zero (total : UInt64) : addSaturating total 0 = total := by
  have hlt := total.toNat_lt
  unfold addSaturating
  rw [Nat.add_zero, Nat.min_eq_left (Nat.le_sub_one_of_lt hlt), UInt64.ofNat_toNat]

theorem toNat_addSaturating {total : UInt64} {n : Nat} (h : total.toNat + n < UInt64.size) :
    (addSaturating total n).toNat = total.toNat + n := by
  unfold addSaturating
  rw [Nat.min_eq_left (Nat.le_sub_one_of_lt h), UInt64.toNat_ofNat_of_lt' h]

theorem sum_map_toNat {α : Type} (p : α → Bool) (l : List α) :
    (l.map fun a => (p a).toNat).sum = l.countP p := by
  induction l with
  | nil => rfl
  | cons a more ih =>
    rw [List.map_cons, List.sum_cons, ih, List.countP_cons, Nat.add_comm]
    rcases p a with _ | _ <;> rfl

theorem sum_map_zero {α : Type} {f : α → Nat} {l : List α} (h : ∀ a ∈ l, f a = 0) :
    (l.map f).sum = 0 := by
  induction l with
  | nil => rfl
  | cons a more ih =>
    rw [List.map_cons, List.sum_cons, h a (.head _), ih fun b hb => h b (.tail _ hb)]

theorem sum_map_le {α : Type} {f g : α → Nat} (h : ∀ a, f a ≤ g a) (l : List α) :
    (l.map f).sum ≤ (l.map g).sum := by
  induction l with
  | nil => exact Nat.le_refl _
  | cons a more ih =>
    rw [List.map_cons, List.map_cons, List.sum_cons, List.sum_cons]
    exact Nat.add_le_add (h a) ih

namespace Event

/-- What an event has to count beside itself: bytes, elements or arrays. -/
def units : Event → Nat
  | .undoLogged bytes => bytes
  | .rangeDone _ elements => elements
  | .transientsCleared arrays => arrays
  | _ => 0

/-- Whether an event reports on an entry point of the range operations. -/
def concerns (operation : RangeOperation) (e : Event) : Bool :=
  decide (e.operation? = some operation)

/-- Whether it reports that a range operation failed. -/
def isFailureOf (operation : RangeOperation) : Event → Bool
  | .rangeFailed other => decide (other = operation)
  | _ => false

/-- The elements that an entry point reports. -/
def elementsOf (operation : RangeOperation) : Event → Nat
  | .rangeDone other elements => if other = operation then elements else 0
  | _ => 0

theorem elementsOf_le (operation : RangeOperation) (e : Event) :
    e.elementsOf operation ≤ e.units := by
  cases e
  case rangeDone other elements =>
    show (if other = operation then elements else 0) ≤ elements
    split
    · exact Nat.le_refl _
    · exact Nat.zero_le _
  all_goals exact Nat.zero_le _

end Event

namespace Totals

/-- Whether each event adds an amount to a total. -/
def Adds (total : Totals → UInt64) (amount : Event → Nat) : Prop :=
  ∀ t e, total (t.record e) = addSaturating (total t) (amount e)

/-- A total is the sum of the amounts, unless it is too large for a word. -/
theorem Adds.toNat_foldl {total : Totals → UInt64} {amount : Event → Nat} (h : Adds total amount)
    (es : List Event) (t : Totals)
    (hbound : (total t).toNat + (es.map amount).sum < UInt64.size) :
    (total (es.foldl record t)).toNat = (total t).toNat + (es.map amount).sum := by
  induction es generalizing t with
  | nil => rfl
  | cons e more ih =>
    rw [List.map_cons, List.sum_cons] at hbound ⊢
    have hfirst : (total (t.record e)).toNat = (total t).toNat + amount e := by
      rw [h t e]
      exact toNat_addSaturating (by omega)
    rw [List.foldl_cons, ih _ (by rw [hfirst]; omega), hfirst]
    omega

/-- Fresh totals end up with the sum of the amounts, if there is a bound on it. -/
theorem Adds.toNat_fresh {total : Totals → UInt64} {amount bound : Event → Nat}
    (h : Adds total amount) (hzero : total {} = 0) (hle : ∀ e, amount e ≤ bound e)
    {es : List Event} (hbound : (es.map bound).sum < UInt64.size) :
    (total (es.foldl record {})).toNat = (es.map amount).sum := by
  have hsum := sum_map_le hle es
  have hstart : (total {}).toNat = 0 := by rw [hzero]; rfl
  rw [h.toNat_foldl es {} (by omega), hstart, Nat.zero_add]

/-- Totals that count events. -/
theorem Adds.toNat_count {total : Totals → UInt64} {p : Event → Bool}
    (h : Adds total fun e => (p e).toNat) (hzero : total {} = 0) {es : List Event}
    (hlength : es.length < UInt64.size) :
    (total (es.foldl record {})).toNat = (es.map fun e => (p e).toNat).sum := by
  refine h.toNat_fresh hzero (fun e => Bool.toNat_le (p e)) ?_
  rw [List.map_const', List.sum_replicate_nat, Nat.mul_one]
  exact hlength

theorem adds_begins : Adds begins fun e => e.isBegun.toNat := by
  intro t e
  cases e <;> simp [record, Event.isBegun, addSaturating_zero]

theorem adds_commits : Adds commits fun e => e.isCommitted.toNat := by
  intro t e
  cases e <;> simp [record, Event.isCommitted, addSaturating_zero]

theorem adds_aborts : Adds aborts fun e => e.isAborted.toNat := by
  intro t e
  cases e <;> simp [record, Event.isAborted, addSaturating_zero]

theorem adds_capacityOverflows : Adds capacityOverflows fun e => e.isOverflow.toNat := by
  intro t e
  cases e
  case aborted cause entries => cases cause <;> simp [record, Event.isOverflow]
  all_goals simp [record, Event.isOverflow, addSaturating_zero]

theorem adds_powerLosses : Adds powerLosses fun e => e.isPowerLost.toNat := by
  intro t e
  cases e <;> simp [record, Event.isPowerLost, addSaturating_zero]

/-! ## Range operations -/

/-- The totals of an entry point. -/
def rangeTotals (t : Totals) (operation : RangeOperation) : RangeTotals :=
  (t.ranges.lookup operation).getD {}

theorem lookup_updateRange (operation other : RangeOperation) (f : RangeTotals → RangeTotals)
    (ranges : List (RangeOperation × RangeTotals)) :
    ((updateRange operation f ranges).lookup other).getD {} =
      if operation = other then f ((ranges.lookup operation).getD {})
      else (ranges.lookup other).getD {} := by
  induction ranges with
  | nil =>
    rw [updateRange, List.lookup_cons]
    by_cases h : operation = other
    · simp [h]
    · rw [beq_false_of_ne (Ne.symm h), if_neg h]
  | cons entry more ih =>
    rw [updateRange]
    by_cases hentry : entry.1 = operation
    · rw [if_pos hentry, List.lookup_cons, List.lookup_cons, List.lookup_cons, hentry]
      by_cases h : operation = other
      · simp [h]
      · have hne : (other == operation) = false := beq_false_of_ne (Ne.symm h)
        rw [hne, if_neg h]
    · rw [if_neg hentry, List.lookup_cons, List.lookup_cons, List.lookup_cons]
      have hne : (operation == entry.1) = false := beq_false_of_ne (Ne.symm hentry)
      rw [hne]
      rcases heq : (other == entry.1) with _ | _
      · exact ih
      · have hother : other = entry.1 := eq_of_beq heq
        have hdiffer : operation ≠ other := by
          rw [hother]
          exact Ne.symm hentry
        rw [if_neg hdiffer]

theorem adds_calls (operation : RangeOperation) :
    Adds (fun t => (t.rangeTotals operation).calls) fun e => (e.concerns operation).toNat := by
  intro t e
  cases e
  case rangeDone other elements =>
    simp only [record, rangeTotals, lookup_updateRange]
    by_cases h : other = operation <;>
      simp [h, Event.concerns, Event.operation?, addSaturating_zero]
  case rangeFailed other =>
    simp only [record, rangeTotals, lookup_updateRange]
    by_cases h : other = operation <;>
      simp [h, Event.concerns, Event.operation?, addSaturating_zero]
  all_goals simp [record, rangeTotals, Event.concerns, Event.operation?, addSaturating_zero]

theorem adds_failures (operation : RangeOperation) :
    Adds (fun t => (t.rangeTotals operation).failures) fun e =>
      (e.isFailureOf operation).toNat := by
  intro t e
  cases e
  case rangeDone other elements =>
    simp only [record, rangeTotals, lookup_updateRange]
    by_cases h : other = operation <;> simp [h, Event.isFailureOf, addSaturating_zero]
  case rangeFailed other =>
    simp only [record, rangeTotals, lookup_updateRange]
    by_cases h : other = operation <;> simp [h, Event.isFailureOf, addSaturating_zero]
  all_goals simp [record, rangeTotals, Event.isFailureOf, addSaturating_zero]

theorem adds_elements (operation : RangeOperation) :
    Adds (fun t => (t.rangeTotals operation).elements) (Event.elementsOf operation) := by
  intro t e
  cases e
  case rangeDone other elements =>
    simp only [record, rangeTotals, lookup_updateRange]
    by_cases h : other = operation <;> simp [h, Event.elementsOf, addSaturating_zero]
  case rangeFailed other =>
    simp only [record, rangeTotals, lookup_updateRange]
    by_cases h : other = operation <;> simp [h, Event.elementsOf, addSaturating_zero]
  all_goals simp [record, rangeTotals, Event.elementsOf, addSaturating_zero]

/-- An entry point gets one entry when it is called for the first time. -/
theorem keys_updateRange (operation : RangeOperation) (f : RangeTotals → RangeTotals)
    (ranges : List (RangeOperation × RangeTotals)) :
    (updateRange operation f ranges).map Prod.fst =
      if operation ∈ ranges.map Prod.fst then ranges.map Prod.fst
      else ranges.map Prod.fst ++ [operation] := by
  induction ranges with
  | nil => rfl
  | cons entry more ih =>
    rw [updateRange, List.map_cons]
    by_cases hentry : entry.1 = operation
    · rw [if_pos hentry, if_pos (hentry ▸ List.mem_cons_self), List.map_cons, hentry]
    · rw [if_neg hentry, List.map_cons, ih]
      by_cases hmem : operation ∈ more.map Prod.fst
      · rw [if_pos hmem, if_pos (List.mem_cons_of_mem _ hmem)]
      · have hnot : operation ∉ entry.1 :: more.map Prod.fst := by
          rw [List.mem_cons, not_or]
          exact ⟨Ne.symm hentry, hmem⟩
        rw [if_neg hmem, if_neg hnot, List.cons_append]

/-- The entry points that have totals: each once, if an event reports on it. -/
structure Keyed (t : Totals) (es : List Event) : Prop where
  nodup : (t.ranges.map Prod.fst).Nodup
  mem_iff : ∀ operation, operation ∈ t.ranges.map Prod.fst ↔
    ∃ e ∈ es, e.operation? = some operation

theorem Keyed.record {t : Totals} {es : List Event} (h : t.Keyed es) (e : Event) :
    (t.record e).Keyed (es ++ [e]) := by
  have hkeys : (t.record e).ranges.map Prod.fst = match e.operation? with
      | none => t.ranges.map Prod.fst
      | some operation =>
        if operation ∈ t.ranges.map Prod.fst then t.ranges.map Prod.fst
        else t.ranges.map Prod.fst ++ [operation] := by
    cases e
    case rangeDone => exact keys_updateRange _ _ _
    case rangeFailed => exact keys_updateRange _ _ _
    all_goals rfl
  have hmem : ∀ operation, (∃ e' ∈ es ++ [e], e'.operation? = some operation) ↔
      operation ∈ t.ranges.map Prod.fst ∨ e.operation? = some operation := by
    intro operation
    rw [h.mem_iff]
    simp only [List.mem_append, List.mem_singleton, or_and_right, exists_or, exists_eq_left]
  rcases hop : e.operation? with _ | operation
  · rw [hop] at hkeys hmem
    refine ⟨by rw [hkeys]; exact h.nodup, fun other => ?_⟩
    rw [hmem, hkeys]
    simp
  · rw [hop] at hkeys hmem
    dsimp only at hkeys
    by_cases hthere : operation ∈ t.ranges.map Prod.fst
    · rw [if_pos hthere] at hkeys
      refine ⟨by rw [hkeys]; exact h.nodup, fun other => ?_⟩
      rw [hmem, hkeys]
      refine ⟨.inl, fun hor => hor.elim id fun heq => ?_⟩
      cases heq
      exact hthere
    · rw [if_neg hthere] at hkeys
      refine ⟨?_, fun other => ?_⟩
      · rw [hkeys]
        refine List.nodup_append.mpr ⟨h.nodup, List.pairwise_singleton _ _, fun a ha b hb => ?_⟩
        rw [List.mem_singleton.mp hb]
        rintro rfl
        exact hthere ha
      · rw [hmem, hkeys, List.mem_append, List.mem_singleton, Option.some.injEq]
        exact or_congr_right eq_comm

theorem Keyed.foldl {t : Totals} {es : List Event} (h : t.Keyed es) (more : List Event) :
    (more.foldl Totals.record t).Keyed (es ++ more) := by
  induction more generalizing t es with
  | nil =>
    rw [List.append_nil]
    exact h
  | cons e rest ih =>
    have hnext := ih (h.record e)
    rw [List.append_assoc, List.singleton_append] at hnext
    exact hnext

theorem keyed_reset : Keyed {} [] :=
  ⟨List.nodup_nil, fun operation => by simp⟩

end Totals

end SmartCard
