-- SUMMARY: The reader of values takes exactly the notations of integers and booleans.
import Mathlib.Tactic.IntervalCases
import SmartCard.Proofs.Config.Grammar

/-!
# Reading values

`ofChars?_eq_some_iff`: a text is read as a value exactly when it is a notation of it. The digits of
a number are read from the front while the grammar adds digits at the end, so reading is tied to the
grammar by what more digits do to the number read so far (`digits?_append`).
-/

namespace SmartCard

namespace Document

variable {base n m d : Nat} {c : Char} {cs rest : List Char} {value : Value}

/-! ## Digits -/

theorem digit?_of_denotes (h : Denotes c d) (hd : d < base) : digit? base c = some d := by
  have hlt := h.lt
  rcases h with h | h
  · interval_cases d <;> simp at h <;> subst h <;> simp [digit?, hd]
  · interval_cases d <;> simp at h <;> subst h <;> simp [digit?, hd]

/-- A character between two others has a code between theirs. -/
theorem exists_of_between {lo hi c : Char} (h : (lo ≤ c && c ≤ hi) = true) :
    ∃ k ≤ hi.toNat - lo.toNat, c.toNat = lo.toNat + k ∧ c = Char.ofNat (lo.toNat + k) := by
  simp only [Bool.and_eq_true, decide_eq_true_eq, Char.le_def, UInt32.le_iff_toNat_le] at h
  obtain ⟨hlo, hhi⟩ := h
  have hcode : c.toNat = lo.toNat + (c.toNat - lo.toNat) := (Nat.add_sub_cancel' hlo).symm
  refine ⟨c.toNat - lo.toNat, Nat.sub_le_sub_right hhi _, hcode, ?_⟩
  rw [← hcode, Char.ofNat_toNat]

theorem denotes_of_digit? (h : digit? base c = some d) : Denotes c d ∧ d < base := by
  obtain ⟨hvalue, hd⟩ := Option.filter_eq_some_iff.mp h
  refine ⟨?_, by simpa using hd⟩
  unfold Denotes
  split at hvalue
  · rename_i hc
    obtain ⟨k, hk, hcode, hchar⟩ := exists_of_between hc
    obtain rfl : k = d := by simpa [hcode] using hvalue
    change k ≤ 9 at hk
    left
    interval_cases k <;> simp [hchar]
  · split at hvalue
    · rename_i hc
      obtain ⟨k, hk, hcode, hchar⟩ := exists_of_between hc
      obtain rfl : k + 10 = d := by simpa [hcode] using hvalue
      change k ≤ 5 at hk
      left
      interval_cases k <;> simp [hchar]
    · split at hvalue
      · rename_i hc
        obtain ⟨k, hk, hcode, hchar⟩ := exists_of_between hc
        obtain rfl : k + 10 = d := by simpa [hcode] using hvalue
        change k ≤ 5 at hk
        right
        interval_cases k <;> simp [hchar]
      · cases hvalue

/-! ## Numbers -/

/-- Digits are read from the front, so more digits continue the number read so far. -/
theorem moreDigits?_append (h : moreDigits? base n cs = some m) :
    moreDigits? base n (cs ++ rest) = moreDigits? base m rest := by
  fun_induction moreDigits? base n cs with
  | case1 n =>
    obtain rfl := Option.some.inj h
    rfl
  | case2 n c cs ih =>
    obtain ⟨d, hd, hmore⟩ := Option.bind_eq_some_iff.mp h
    simp only [List.cons_append, moreDigits?, hd, Option.bind_some]
    exact ih d hmore
  | case3 n c cs hone ih =>
    obtain ⟨d, hd, hmore⟩ := Option.bind_eq_some_iff.mp h
    rw [List.cons_append, moreDigits?, hd, Option.bind_some]
    · exact ih d hmore
    · rintro c' rest' rfl
      simp [digit?] at hd

theorem digits?_append (h : digits? base cs = some n) :
    digits? base (cs ++ rest) = moreDigits? base n rest := by
  cases cs with
  | nil => cases h
  | cons c cs =>
    obtain ⟨d, hd, hmore⟩ := Option.bind_eq_some_iff.mp h
    rw [List.cons_append, digits?, hd, Option.bind_some, moreDigits?_append hmore]

theorem digits?_of_digits (h : Digits base cs n) : digits? base cs = some n := by
  induction h with
  | one hc hd => simp [digits?, digit?_of_denotes hc hd, moreDigits?]
  | @next cs n c d _ hc hd ih =>
    have hc' := digit?_of_denotes hc hd
    have hne : c ≠ '_' := by
      rintro rfl
      simp [digit?] at hc'
    rw [digits?_append ih, moreDigits?, hc', Option.bind_some, moreDigits?]
    rintro _ _ rfl
    exact absurd rfl hne
  | spaced _ hc hd ih =>
    rw [digits?_append ih, moreDigits?, digit?_of_denotes hc hd, Option.bind_some, moreDigits?]

theorem Digits.append_of_more {front : List Char} (hfront : Digits base front n)
    (h : moreDigits? base n cs = some m) : Digits base (front ++ cs) m := by
  fun_induction moreDigits? base n cs generalizing front with
  | case1 n =>
    obtain rfl := Option.some.inj h
    rwa [List.append_nil]
  | case2 n c cs ih =>
    obtain ⟨d, hd, hmore⟩ := Option.bind_eq_some_iff.mp h
    have hc := denotes_of_digit? hd
    have := ih d (hfront.spaced hc.1 hc.2) hmore
    rwa [List.append_assoc] at this
  | case3 n c cs _ ih =>
    obtain ⟨d, hd, hmore⟩ := Option.bind_eq_some_iff.mp h
    have hc := denotes_of_digit? hd
    have := ih d (hfront.next hc.1 hc.2) hmore
    rwa [List.append_assoc] at this

theorem digits?_eq_some_iff : digits? base cs = some n ↔ Digits base cs n := by
  refine ⟨fun h => ?_, digits?_of_digits⟩
  cases cs with
  | nil => cases h
  | cons c cs =>
    obtain ⟨d, hd, hmore⟩ := Option.bind_eq_some_iff.mp h
    have hc := denotes_of_digit? hd
    exact (Digits.one hc.1 hc.2).append_of_more hmore

theorem decimal?_eq_some_iff : decimal? cs = some n ↔ Decimal cs n := by
  constructor
  · intro h
    unfold decimal? at h
    split at h
    · obtain rfl := Option.some.inj h
      exact .zero
    · cases h
    · rename_i hzero
      have hdigits := digits?_eq_some_iff.mp h
      cases cs with
      | nil => cases h
      | cons c cs =>
        refine .positive ?_ hdigits
        rintro rfl
        exact hzero cs rfl
  · rintro (_ | ⟨hc, hdigits⟩)
    · rfl
    · rw [decimal?]
      · exact digits?_of_digits hdigits
      · intro heq
        exact hc (List.cons.inj heq).1
      · intro _ heq
        exact hc (List.cons.inj heq).1

/-- A decimal number begins with a digit. -/
theorem Decimal.head (h : Decimal (c :: cs) n) : ∃ d, Denotes c d ∧ d < 10 := by
  rcases h with _ | ⟨_, hdigits⟩
  · exact ⟨0, .inl rfl, by decide⟩
  · obtain ⟨d, hd, _⟩ := Option.bind_eq_some_iff.mp (digits?_of_digits hdigits)
    exact ⟨d, denotes_of_digit? hd⟩

theorem integer?_of_decimal (h : Decimal cs n) : integer? cs = some (Int.ofNat n) := by
  have hread := decimal?_eq_some_iff.mpr h
  rw [integer?, hread, Option.map_some]
  · rintro rest rfl
    cases h with
    | positive hc _ => exact hc rfl
  · rintro rest rfl
    cases h with
    | positive hc _ => exact hc rfl
  · rintro rest rfl
    cases h with
    | positive hc _ => exact hc rfl
  · rintro rest rfl
    obtain ⟨d, hc, hd⟩ := h.head
    simpa [digit?] using digit?_of_denotes hc hd
  · rintro rest rfl
    obtain ⟨d, hc, hd⟩ := h.head
    simpa [digit?] using digit?_of_denotes hc hd

theorem integer?_eq_some_iff {i : Int} : integer? cs = some i ↔ IntegerText cs i := by
  constructor
  · intro h
    unfold integer? at h
    split at h <;> obtain ⟨n, hn, rfl⟩ := Option.map_eq_some_iff.mp h
    · exact .hexadecimal (digits?_eq_some_iff.mp hn)
    · exact .octal (digits?_eq_some_iff.mp hn)
    · exact .binary (digits?_eq_some_iff.mp hn)
    · exact .plus (decimal?_eq_some_iff.mp hn)
    · exact .minus (decimal?_eq_some_iff.mp hn)
    · exact .unsigned (decimal?_eq_some_iff.mp hn)
  · intro h
    cases h with
    | unsigned hn => exact integer?_of_decimal hn
    | plus hn => rw [integer?, decimal?_eq_some_iff.mpr hn, Option.map_some]
    | minus hn => rw [integer?, decimal?_eq_some_iff.mpr hn, Option.map_some]
    | hexadecimal hn => rw [integer?, digits?_of_digits hn, Option.map_some]
    | octal hn => rw [integer?, digits?_of_digits hn, Option.map_some]
    | binary hn => rw [integer?, digits?_of_digits hn, Option.map_some]

theorem ofChars?_eq_some_iff : Value.ofChars? cs = some value ↔ ValueText cs value := by
  unfold Value.ofChars?
  constructor
  · intro h
    split at h
    · rename_i hcs
      obtain rfl := Option.some.inj h
      exact hcs ▸ .truth
    · split at h
      · rename_i hcs
        obtain rfl := Option.some.inj h
        exact hcs ▸ .falsehood
      · obtain ⟨n, hn, rfl⟩ := Option.map_eq_some_iff.mp h
        exact .integer (integer?_eq_some_iff.mp hn)
  · rintro (_ | _ | hn)
    · rfl
    · rfl
    · have hread := integer?_eq_some_iff.mpr hn
      rw [if_neg, if_neg, hread, Option.map_some]
      · rintro rfl
        have hword : integer? ['f', 'a', 'l', 's', 'e'] = none := by decide
        cases hword.symm.trans hread
      · rintro rfl
        have hword : integer? ['t', 'r', 'u', 'e'] = none := by decide
        cases hword.symm.trans hread

end Document

end SmartCard
