-- SUMMARY: Documents with values of other types, dotted keys or tables cannot be read.
import SmartCard.Proofs.Config.Reading

/-!
# Foreign documents

Settings in general know more than integers and booleans: texts, lists, tables, fractions, dates and
times, dotted keys and headers of tables. Each of them shows in how it begins (`Foreign`,
`Opening`), and a document in which a line begins like this cannot be read, whatever follows
(`assignments?_eq_none_of_opening`).
-/

namespace SmartCard

namespace Document

/-- A sign, or none. -/
inductive Sign : List Char → Prop where
  | none : Sign []
  | plus : Sign ['+']
  | minus : Sign ['-']

/-- How the values begin that are neither integers nor booleans. -/
inductive Foreign : List Char → Prop where
  | text {c} : c = '"' ∨ c = apostrophe → Foreign [c]
  | list : Foreign ['[']
  | table : Foreign ['{']
  | fraction {sign digits n c} : Sign sign → Digits 10 digits n → c ∈ ['.', 'e', 'E'] →
      Foreign (sign ++ (digits ++ [c]))
  | time {digits n c} : Digits 10 digits n → c ∈ ['-', ':'] → Foreign (digits ++ [c])
  | infinite {sign} : Sign sign → Foreign (sign ++ "inf".toList)
  | undefined {sign} : Sign sign → Foreign (sign ++ "nan".toList)

/-- How a line begins that holds a foreign value, a dotted key or the header of a table. -/
inductive Opening : List Char → Prop where
  | value {before k key between after v} : Blanks before → KeyText k key → Blanks between →
      Blanks after → Foreign v → Opening (before ++ (k ++ (between ++ '=' :: (after ++ v))))
  | dotted {before k key between} : Blanks before → KeyText k key → Blanks between →
      Opening (before ++ (k ++ (between ++ ['.'])))
  | header {before} : Blanks before → Opening (before ++ ['['])

variable {base n : Nat} {c : Char} {cs rest more key : List Char} {value : Value}
  {as : List Assignment}

/-! ## Foreign values -/

/-- Characters of decimal numbers. -/
def isDecimal (c : Char) : Bool := c == '_' || (digit? 10 c).isSome

theorem Digits.decimal (h : Digits 10 cs n) : ∀ c ∈ cs, isDecimal c = true := by
  intro c hc
  rcases h.mem c hc with rfl | ⟨d, hd, hdenotes⟩
  · rfl
  · simp [isDecimal, digit?_of_denotes hdenotes hd]

theorem Digits.ne_nil (h : Digits base cs n) : cs ≠ [] := by
  cases h <;> simp

theorem Decimal.decimal (h : Decimal cs n) : ∀ c ∈ cs, isDecimal c = true := by
  cases h with
  | zero => exact List.all_eq_true.mp rfl
  | positive _ hdigits => exact hdigits.decimal

/-- Behind its first character an integer is decimal, if that does not announce another base. -/
theorem IntegerText.tail {i : Int} (h : IntegerText cs i) :
    (∀ c ∈ cs.tail, isDecimal c = true) ∨
      ∃ mark ∈ ['x', 'o', 'b'], ∃ more, cs = '0' :: mark :: more := by
  cases h with
  | unsigned hn => exact .inl fun c hc => hn.decimal c (List.mem_of_mem_tail hc)
  | plus hn => exact .inl hn.decimal
  | minus hn => exact .inl hn.decimal
  | hexadecimal _ => exact .inr ⟨'x', by simp, _, rfl⟩
  | octal _ => exact .inr ⟨'o', by simp, _, rfl⟩
  | binary _ => exact .inr ⟨'b', by simp, _, rfl⟩

/-- A character that is not decimal, behind characters that announce no other base and begin no
word, makes a text foreign. -/
theorem not_valueText (hc : c ∈ cs.tail) (hdecimal : isDecimal c = false)
    (hhead : cs.head? ≠ some 't' ∧ cs.head? ≠ some 'f')
    (hmark : ∀ mark ∈ ['x', 'o', 'b'], ∀ more, cs ≠ '0' :: mark :: more) :
    ¬ ValueText cs value := by
  rintro (_ | _ | hn)
  · exact hhead.1 rfl
  · exact hhead.2 rfl
  · rcases hn.tail with hall | ⟨mark, hmem, more, hcs⟩
    · rw [hall c hc] at hdecimal
      cases hdecimal
    · exact hmark mark hmem more hcs

/-- Decimal digits behind a sign, and then a character that no integer has there. -/
theorem not_valueText_of_digits {sign digits : List Char} (hsign : Sign sign)
    (hdigits : Digits 10 digits n) (hdecimal : isDecimal c = false) (hc : c ∉ ['x', 'o', 'b']) :
    ¬ ValueText (sign ++ (digits ++ c :: more)) value := by
  obtain ⟨d, tail, rfl⟩ := List.exists_cons_of_ne_nil hdigits.ne_nil
  have hd := hdigits.decimal d (by simp)
  refine not_valueText (c := c) ?_ hdecimal ?_ ?_
  · cases hsign <;> simp
  · cases hsign with
    | none =>
      constructor
      · rintro ⟨⟩
        exact absurd hd (by decide)
      · rintro ⟨⟩
        exact absurd hd (by decide)
    | plus => simp
    | minus => simp
  · intro mark hmark rest heq
    cases hsign with
    | none =>
      -- The second character is a further digit or the one that no integer has there.
      cases tail with
      | nil =>
        obtain ⟨_, hsecond⟩ := List.cons.inj heq
        exact hc ((List.cons.inj hsecond).1 ▸ hmark)
      | cons second tail =>
        obtain ⟨_, hsecond⟩ := List.cons.inj heq
        obtain rfl := (List.cons.inj hsecond).1
        have hdigit := hdigits.decimal second (by simp)
        simp only [List.mem_cons, List.not_mem_nil, or_false] at hmark
        rcases hmark with rfl | rfl | rfl <;> exact absurd hdigit (by decide)
    | plus => exact absurd heq (by simp)
    | minus => exact absurd heq (by simp)

/-- What begins like a foreign value is none of a configuration. -/
theorem Foreign.not_valueText {v : List Char} (h : Foreign v) :
    ¬ ValueText (v ++ more) value := by
  have hplain : ∀ {c : Char}, isPlain c = false → ¬ ValueText ([c] ++ more) value := by
    intro c hc hv
    rw [hv.plain c (by simp)] at hc
    cases hc
  cases h with
  | text hc => rcases hc with rfl | rfl <;> exact hplain rfl
  | list => exact hplain rfl
  | table => exact hplain rfl
  | fraction hsign hdigits hc =>
    rw [List.append_assoc, List.append_assoc, List.singleton_append]
    simp only [List.mem_cons, List.not_mem_nil, or_false] at hc
    rcases hc with rfl | rfl | rfl <;>
      exact not_valueText_of_digits hsign hdigits (by decide) (by decide)
  | time hdigits hc =>
    rw [List.append_assoc, List.singleton_append]
    simp only [List.mem_cons, List.not_mem_nil, or_false] at hc
    rcases hc with rfl | rfl <;>
      exact not_valueText_of_digits .none hdigits (by decide) (by decide)
  | infinite hsign =>
    exact Document.not_valueText (c := 'n') (by cases hsign <;> simp) (by decide)
      (by cases hsign <;> simp) (by cases hsign <;> simp)
  | undefined hsign =>
    exact Document.not_valueText (c := 'a') (by cases hsign <;> simp) (by decide)
      (by cases hsign <;> simp) (by cases hsign <;> simp)

/-- Characters within one word on one line. -/
def isInner (c : Char) : Bool := inWord c && inLine c

/-- How a foreign value begins stands within one word on one line. -/
theorem Foreign.inner {v : List Char} (h : Foreign v) : ∀ c ∈ v, isInner c = true := by
  have hplain : ∀ {cs : List Char}, (∀ c ∈ cs, isPlain c = true) → ∀ c ∈ cs, isInner c = true := by
    intro cs h c hc
    rw [isInner, inWord_of_isPlain (h c hc), inLine_of_isPlain (h c hc), Bool.and_true]
  have hsigned : ∀ {sign}, Sign sign → ∀ c ∈ sign, isInner c = true := by
    intro sign hsign
    cases hsign <;> exact List.all_eq_true.mp rfl
  cases h with
  | text hc => rcases hc with rfl | rfl <;> exact List.all_eq_true.mp rfl
  | list => exact List.all_eq_true.mp rfl
  | table => exact List.all_eq_true.mp rfl
  | fraction hsign hdigits hc =>
    simp only [List.forall_mem_append, List.forall_mem_singleton]
    have hmark : ∀ c ∈ ['.', 'e', 'E'], isInner c = true := List.all_eq_true.mp rfl
    exact ⟨hsigned hsign, hplain hdigits.plain, hmark _ hc⟩
  | time hdigits hc =>
    simp only [List.forall_mem_append, List.forall_mem_singleton]
    have hmark : ∀ c ∈ ['-', ':'], isInner c = true := List.all_eq_true.mp rfl
    exact ⟨hplain hdigits.plain, hmark _ hc⟩
  | infinite hsign =>
    exact List.forall_mem_append.mpr ⟨hsigned hsign, List.all_eq_true.mp rfl⟩
  | undefined hsign =>
    exact List.forall_mem_append.mpr ⟨hsigned hsign, List.all_eq_true.mp rfl⟩

theorem Foreign.ne_nil {v : List Char} (h : Foreign v) : v ≠ [] := by
  cases h <;> simp

/-! ## Foreign lines -/

theorem ofChars?_eq_none (h : ∀ value, ¬ ValueText cs value) : Value.ofChars? cs = none :=
  Option.eq_none_iff_forall_not_mem.mpr fun value hv => h value (ofChars?_eq_some_iff.mp hv)

theorem assignment?_eq_none_of_foreign (rest : List Char) {k between after v : List Char}
    (hk : KeyText k key) (hbetween : Blanks between) (hafter : Blanks after) (hv : Foreign v) :
    assignment? (k ++ (between ++ '=' :: (after ++ (v ++ rest)))) = none := by
  have hword : ∀ c ∈ v, inWord c = true := fun c hc => (Bool.and_eq_true_iff.mp (hv.inner c hc)).1
  rw [assignment?_apply hk hbetween hafter (stops_isBlank hv.ne_nil hword),
    List.takeWhile_append_of_pos hword, ofChars?_eq_none fun _ => hv.not_valueText,
    Option.bind_none]

theorem assignment?_eq_none_of_dotted (rest : List Char) {k between : List Char}
    (hk : KeyText k key) (hbetween : Blanks between) :
    assignment? (k ++ (between ++ '.' :: rest)) = none := by
  have hbare : Stops isBare ('.' :: rest) := by simp [Stops, isBare]
  have hblank : Stops isBlank ('.' :: rest) := by simp [Stops, isBlank]
  have hkey := key?_of_keyText hk (stops_blanks hbetween (fun _ => not_isBare_of_isBlank) hbare)
  have hdot := dropWhile_of_stops hbetween hblank
  simp only [assignment?, hkey, hdot]
  rfl

theorem line?_eq_none_of_opening {opening : List Char} (h : Opening opening) :
    line? (opening ++ rest) = none := by
  cases h with
  | value hbefore hk hbetween hafter hv =>
    have hread := assignment?_eq_none_of_foreign rest hk hbetween hafter hv
    obtain ⟨c, more, rfl, hblank, hcomment, _⟩ := hk.head
    simp only [List.append_assoc, List.cons_append] at hread ⊢
    rw [line?_apply hbefore hblank hcomment, hread, Option.map_none]
  | dotted hbefore hk hbetween =>
    have hread := assignment?_eq_none_of_dotted rest hk hbetween
    obtain ⟨c, more, rfl, hblank, hcomment, _⟩ := hk.head
    simp only [List.append_assoc, List.cons_append, List.nil_append] at hread ⊢
    rw [line?_apply hbefore hblank hcomment, hread, Option.map_none]
  | header hbefore =>
    rw [List.append_assoc, List.singleton_append, line?_apply hbefore rfl (by decide)]
    rfl

theorem Opening.inLine {opening : List Char} (h : Opening opening) :
    ∀ c ∈ opening, inLine c = true := by
  cases h with
  | value hbefore hk hbetween hafter hv =>
    simp only [List.forall_mem_append, List.forall_mem_cons]
    exact ⟨hbefore.inLine, hk.inLine, hbetween.inLine, rfl, hafter.inLine,
      fun c hc => (Bool.and_eq_true_iff.mp (hv.inner c hc)).2⟩
  | dotted hbefore hk hbetween =>
    simp only [List.forall_mem_append]
    exact ⟨hbefore.inLine, hk.inLine, hbetween.inLine, List.all_eq_true.mp rfl⟩
  | header hbefore =>
    exact List.forall_mem_append.mpr ⟨hbefore.inLine, List.all_eq_true.mp rfl⟩

/-! ## Foreign documents -/

/-- The line on which characters stand reaches from them to the next end of a line. -/
theorem exists_lines_append (rest : List Char) (hcs : ∀ c ∈ cs, inLine c = true) :
    ∃ more ls, lines (cs ++ rest) = (cs ++ more) :: ls := by
  induction cs with
  | nil => exact List.exists_cons_of_ne_nil lines_ne_nil
  | cons c cs ih =>
    obtain ⟨hc, htail⟩ := List.forall_mem_cons.mp hcs
    obtain ⟨hfeed, hreturn⟩ := inLine_iff.mp hc
    obtain ⟨more, ls, hlines⟩ := ih htail
    refine ⟨more, ls, ?_⟩
    rw [List.cons_append, lines, hlines]
    · rfl
    · intro h
      exact hfeed h
    · intro _ h
      exact absurd h hreturn

/-- No document holds a line that cannot be read. -/
theorem mapM_lines_eq_none {front : List Char} (hfront : Lines front as)
    (hcs : ∀ c ∈ cs, inLine c = true) (h : ∀ more, line? (cs ++ more) = none) :
    (lines (front ++ (cs ++ rest))).mapM line? = none := by
  induction hfront with
  | nil =>
    obtain ⟨more, ls, hlines⟩ := exists_lines_append rest hcs
    rw [List.nil_append, hlines, List.mapM_cons, h]
    rfl
  | cons hline hnl _ ih =>
    rw [List.append_assoc, List.append_assoc, lines_append hline.inLine hnl, List.mapM_cons,
      line?_of_line hline, ih]
    rfl

theorem Opening.head_ne_mark {opening : List Char} (h : Opening opening) :
    (opening ++ rest).head? ≠ some '\uFEFF' := by
  cases h with
  | value hbefore hk _ _ _ =>
    rw [List.append_assoc, List.append_assoc]
    exact hbefore.head_ne_mark hk.head_ne_mark
  | dotted hbefore hk _ =>
    rw [List.append_assoc, List.append_assoc]
    exact hbefore.head_ne_mark hk.head_ne_mark
  | header hbefore =>
    rw [List.append_assoc]
    exact hbefore.head_ne_mark (by simp)

/-- A document with a foreign line cannot be read, whatever stands before it and behind it. -/
theorem assignments?_eq_none_of_opening {mark front opening : List Char} (hmark : Mark mark)
    (hfront : Lines front as) (h : Opening opening) :
    assignments? (mark ++ (front ++ (opening ++ rest))) = none := by
  have hhead : (front ++ (opening ++ rest)).head? ≠ some '\uFEFF' := by
    cases front with
    | nil => exact h.head_ne_mark
    | cons c front => exact hfront.head_ne_mark
  rw [assignments?_mark hmark hhead,
    mapM_lines_eq_none hfront h.inLine fun _ => line?_eq_none_of_opening h, Option.map_none]

end Document

end SmartCard
