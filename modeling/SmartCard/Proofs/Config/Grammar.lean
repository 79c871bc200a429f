-- SUMMARY: The grammar of configuration documents.
import Mathlib.Data.List.Forall2
import Mathlib.Data.Nat.Digits.Defs
import SmartCard.Config.Document

/-!
# The grammar of configuration documents

`Written text as` says that a text is a well-formed document which makes the assignments `as`. It is
given by its productions, from the digits up to the lines, and says nothing of how a text is read.
Behind the productions stand the characters that their texts are made of, by which a reader tells
where each of them ends.
-/

namespace SmartCard

namespace Document

/-! ## Productions -/

/-- The digits up to fifteen by their values, with letters of either case. -/
def Denotes (c : Char) (d : Nat) : Prop :=
  "0123456789abcdef".toList[d]? = some c ∨ "0123456789ABCDEF".toList[d]? = some c

/-- Digits of a base and the number that they stand for. Single underscores may stand between
digits. -/
inductive Digits (base : Nat) : List Char → Nat → Prop where
  | one {c d} : Denotes c d → d < base → Digits base [c] d
  | next {cs n c d} : Digits base cs n → Denotes c d → d < base →
      Digits base (cs ++ [c]) (n * base + d)
  | spaced {cs n c d} : Digits base cs n → Denotes c d → d < base →
      Digits base (cs ++ ['_', c]) (n * base + d)

/-- Decimal numbers. Only zero itself begins with a zero. -/
inductive Decimal : List Char → Nat → Prop where
  | zero : Decimal ['0'] 0
  | positive {c cs n} : c ≠ '0' → Digits 10 (c :: cs) n → Decimal (c :: cs) n

/-- The notations of an integer. -/
inductive IntegerText : List Char → Int → Prop where
  | unsigned {cs n} : Decimal cs n → IntegerText cs (Int.ofNat n)
  | plus {cs n} : Decimal cs n → IntegerText ('+' :: cs) (Int.ofNat n)
  | minus {cs n} : Decimal cs n → IntegerText ('-' :: cs) (-Int.ofNat n)
  | hexadecimal {cs n} : Digits 16 cs n → IntegerText ('0' :: 'x' :: cs) (Int.ofNat n)
  | octal {cs n} : Digits 8 cs n → IntegerText ('0' :: 'o' :: cs) (Int.ofNat n)
  | binary {cs n} : Digits 2 cs n → IntegerText ('0' :: 'b' :: cs) (Int.ofNat n)

/-- The notations of a value. -/
inductive ValueText : List Char → Value → Prop where
  | truth : ValueText "true".toList (.boolean true)
  | falsehood : ValueText "false".toList (.boolean false)
  | integer {cs n} : IntegerText cs n → ValueText cs (.integer n)

/-- Hexadecimal digits that spell the code of a character. -/
def Spells (cs : List Char) (c : Char) : Prop :=
  ∃ ds, List.Forall₂ Denotes cs ds ∧ Nat.ofDigits 16 ds.reverse = c.toNat

/-- The letters that announce the code of a character, and how many digits the code has. -/
inductive Announces : Char → Nat → Prop where
  | two : Announces 'x' 2
  | four : Announces 'u' 4
  | eight : Announces 'U' 8

/-- What may stand between the quotes of a key, and the key that it spells. -/
inductive Quoted : List Char → List Char → Prop where
  | nil : Quoted [] []
  | plain {c cs key} : isText c = true → c ≠ '"' → c ≠ '\\' → Quoted cs key →
      Quoted (c :: cs) (c :: key)
  | escape {e c cs key} : escaped? e = some c → Quoted cs key →
      Quoted ('\\' :: e :: cs) (c :: key)
  | code {u digits c cs key} : Announces u digits.length → Spells digits c → Quoted cs key →
      Quoted ('\\' :: u :: (digits ++ cs)) (c :: key)

/-- The notations of a key: bare, between quotes, or between apostrophes. -/
inductive KeyText : List Char → List Char → Prop where
  | bare {cs} : cs ≠ [] → (∀ c ∈ cs, isBare c = true) → KeyText cs cs
  | quoted {cs key} : Quoted cs key → KeyText ('"' :: (cs ++ ['"'])) key
  | literal {cs} : (∀ c ∈ cs, isText c = true ∧ c ≠ apostrophe) →
      KeyText (apostrophe :: (cs ++ [apostrophe])) cs

/-- Spaces and tabs, possibly none. -/
def Blanks (cs : List Char) : Prop := ∀ c ∈ cs, isBlank c = true

instance (cs : List Char) : Decidable (Blanks cs) :=
  decidable_of_iff (cs.all isBlank = true) List.all_eq_true

/-- The end of a line after its content. -/
inductive LineEnd : List Char → Prop where
  | plain {blanks} : Blanks blanks → LineEnd blanks
  | comment {blanks text} : Blanks blanks → (∀ c ∈ text, isText c = true) →
      LineEnd (blanks ++ '#' :: text)

/-- The lines and the assignments that they make. -/
inductive Line : List Char → List Assignment → Prop where
  | empty {cs} : LineEnd cs → Line cs []
  | assignment {before k between after v rest key value} : Blanks before → KeyText k key →
      Blanks between → Blanks after → ValueText v value → LineEnd rest →
      Line (before ++ (k ++ (between ++ '=' :: (after ++ (v ++ rest)))))
        [⟨String.ofList key, value⟩]

/-- The characters that end a line. -/
inductive NewLine : List Char → Prop where
  | short : NewLine ['\n']
  | long : NewLine ['\r', '\n']

/-- Whole lines one after the other, each of them with its end. -/
inductive Lines : List Char → List Assignment → Prop where
  | nil : Lines [] []
  | cons {cs as nl rest more} : Line cs as → NewLine nl → Lines rest more →
      Lines (cs ++ (nl ++ rest)) (as ++ more)

/-- Lines, the last one without an end. -/
inductive Body : List Char → List Assignment → Prop where
  | mk {front as last more} : Lines front as → Line last more → Body (front ++ last) (as ++ more)

/-- A mark of the byte order, or nothing. -/
inductive Mark : List Char → Prop where
  | absent : Mark []
  | present : Mark ['\uFEFF']

/-- A document: lines, possibly behind a byte order mark. -/
inductive Written : List Char → List Assignment → Prop where
  | mk {mark cs as} : Mark mark → Body cs as → Written (mark ++ cs) as

variable {base n d : Nat} {c : Char} {cs key : List Char} {value : Value} {as : List Assignment}

theorem Denotes.lt (h : Denotes c d) : d < 16 := by
  rcases h with h | h
  · exact (List.getElem?_eq_some_iff.mp h).1
  · exact (List.getElem?_eq_some_iff.mp h).1

/-! ## The characters of a value -/

/-- Characters that the notations of values are made of. -/
def isPlain (c : Char) : Bool := isBare c || c == '+'

/-- Characters at which the reader does not end a value. -/
def inWord (c : Char) : Bool := !isBlank c && c != '#'

theorem inWord_of_isPlain (h : isPlain c = true) : inWord c = true := by
  simp only [inWord, isBlank, Bool.and_eq_true, Bool.not_eq_true', Bool.or_eq_false_iff,
    beq_eq_false_iff_ne, bne_iff_ne]
  refine ⟨⟨?_, ?_⟩, ?_⟩ <;> rintro rfl <;> exact absurd h (by decide)

theorem Denotes.isBare (h : Denotes c d) : isBare c = true := by
  have hlower : ∀ c ∈ "0123456789abcdef".toList, Document.isBare c = true :=
    List.all_eq_true.mp rfl
  have hupper : ∀ c ∈ "0123456789ABCDEF".toList, Document.isBare c = true :=
    List.all_eq_true.mp rfl
  rcases h with h | h
  · exact hlower c (List.mem_of_getElem? h)
  · exact hupper c (List.mem_of_getElem? h)

/-- A number is written in digits and underscores. -/
theorem Digits.mem (h : Digits base cs n) : ∀ c ∈ cs, c = '_' ∨ ∃ d < base, Denotes c d := by
  induction h with
  | one hc hd =>
    intro c h
    obtain rfl := List.mem_singleton.mp h
    exact .inr ⟨_, hd, hc⟩
  | next _ hc hd ih =>
    intro c h
    rcases List.mem_append.mp h with h | h
    · exact ih c h
    · obtain rfl := List.mem_singleton.mp h
      exact .inr ⟨_, hd, hc⟩
  | spaced _ hc hd ih =>
    intro c h
    rcases List.mem_append.mp h with h | h
    · exact ih c h
    · rcases List.mem_pair.mp h with rfl | rfl
      · exact .inl rfl
      · exact .inr ⟨_, hd, hc⟩

theorem Digits.plain (h : Digits base cs n) : ∀ c ∈ cs, isPlain c = true := by
  intro c hc
  rcases h.mem c hc with rfl | ⟨d, _, hd⟩
  · rfl
  · rw [isPlain, hd.isBare, Bool.true_or]

theorem Decimal.plain (h : Decimal cs n) : ∀ c ∈ cs, isPlain c = true := by
  cases h with
  | zero => exact List.all_eq_true.mp rfl
  | positive _ hdigits => exact hdigits.plain

theorem IntegerText.plain {i : Int} (h : IntegerText cs i) : ∀ c ∈ cs, isPlain c = true := by
  cases h with
  | unsigned hn => exact hn.plain
  | plus hn => exact List.forall_mem_cons.mpr ⟨rfl, hn.plain⟩
  | minus hn => exact List.forall_mem_cons.mpr ⟨rfl, hn.plain⟩
  | hexadecimal hn => exact List.forall_mem_cons.mpr ⟨rfl, List.forall_mem_cons.mpr ⟨rfl, hn.plain⟩⟩
  | octal hn => exact List.forall_mem_cons.mpr ⟨rfl, List.forall_mem_cons.mpr ⟨rfl, hn.plain⟩⟩
  | binary hn => exact List.forall_mem_cons.mpr ⟨rfl, List.forall_mem_cons.mpr ⟨rfl, hn.plain⟩⟩

theorem ValueText.plain (h : ValueText cs value) : ∀ c ∈ cs, isPlain c = true := by
  cases h with
  | truth => exact List.all_eq_true.mp rfl
  | falsehood => exact List.all_eq_true.mp rfl
  | integer hn => exact hn.plain

theorem ValueText.ne_nil (h : ValueText cs value) : cs ≠ [] := by
  rintro rfl
  cases h with
  | integer hn =>
    cases hn with
    | unsigned hd => cases hd

/-! ## The characters of a line -/

/-- Characters that end no line. -/
def inLine (c : Char) : Bool := c != '\n' && c != '\r'

theorem inLine_iff : inLine c = true ↔ c ≠ '\n' ∧ c ≠ '\r' := by
  simp [inLine]

theorem inLine_of_isBare (h : isBare c = true) : inLine c = true := by
  refine inLine_iff.mpr ⟨?_, ?_⟩ <;> rintro rfl <;> exact absurd h (by decide)

theorem inLine_of_isPlain (h : isPlain c = true) : inLine c = true := by
  refine inLine_iff.mpr ⟨?_, ?_⟩ <;> rintro rfl <;> exact absurd h (by decide)

theorem inLine_of_isText (h : isText c = true) : inLine c = true := by
  refine inLine_iff.mpr ⟨?_, ?_⟩ <;> rintro rfl <;> exact absurd h (by decide)

theorem inLine_of_isBlank (h : isBlank c = true) : inLine c = true := by
  refine inLine_iff.mpr ⟨?_, ?_⟩ <;> rintro rfl <;> exact absurd h (by decide)

theorem inLine_of_escaped? {e : Char} (h : escaped? e = some c) : inLine e = true := by
  refine inLine_iff.mpr ⟨?_, ?_⟩ <;> rintro rfl <;> simp [escaped?] at h

theorem Spells.inLine (h : Spells cs c) : ∀ c ∈ cs, inLine c = true := by
  obtain ⟨ds, hds, _⟩ := h
  clear * - hds
  induction hds with
  | nil => simp
  | cons hd _ ih => exact List.forall_mem_cons.mpr ⟨inLine_of_isBare hd.isBare, ih⟩

theorem Announces.inLine {u : Char} {count : Nat} (h : Announces u count) :
    inLine u = true := by
  cases h <;> rfl

theorem Quoted.inLine (h : Quoted cs key) : ∀ c ∈ cs, inLine c = true := by
  induction h with
  | nil => simp
  | plain htext _ _ _ ih => exact List.forall_mem_cons.mpr ⟨inLine_of_isText htext, ih⟩
  | escape he _ ih =>
    exact List.forall_mem_cons.mpr ⟨rfl, List.forall_mem_cons.mpr ⟨inLine_of_escaped? he, ih⟩⟩
  | code hu hspell _ ih =>
    exact List.forall_mem_cons.mpr ⟨rfl, List.forall_mem_cons.mpr
      ⟨hu.inLine, List.forall_mem_append.mpr ⟨hspell.inLine, ih⟩⟩⟩

theorem KeyText.inLine (h : KeyText cs key) : ∀ c ∈ cs, inLine c = true := by
  cases h with
  | bare _ hbare => exact fun c hc => inLine_of_isBare (hbare c hc)
  | quoted hq =>
    simp only [List.forall_mem_cons, List.forall_mem_append]
    exact ⟨rfl, hq.inLine, rfl, by simp⟩
  | literal hkey =>
    simp only [List.forall_mem_cons, List.forall_mem_append]
    exact ⟨rfl, fun c hc => inLine_of_isText (hkey c hc).1, rfl, by simp⟩

theorem Blanks.inLine (h : Blanks cs) : ∀ c ∈ cs, inLine c = true :=
  fun c hc => inLine_of_isBlank (h c hc)

theorem LineEnd.inLine (h : LineEnd cs) : ∀ c ∈ cs, inLine c = true := by
  cases h with
  | plain hblanks => exact hblanks.inLine
  | comment hblanks htext =>
    exact List.forall_mem_append.mpr ⟨hblanks.inLine, List.forall_mem_cons.mpr
      ⟨rfl, fun c hc => inLine_of_isText (htext c hc)⟩⟩

theorem Line.inLine (h : Line cs as) : ∀ c ∈ cs, inLine c = true := by
  cases h with
  | empty hend => exact hend.inLine
  | assignment hbefore hk hbetween hafter hv hend =>
    simp only [List.forall_mem_append, List.forall_mem_cons]
    exact ⟨hbefore.inLine, hk.inLine, hbetween.inLine, rfl, hafter.inLine,
      fun c hc => inLine_of_isPlain (hv.plain c hc), hend.inLine⟩

/-- A key begins with a character that can begin no comment and stands for itself. -/
theorem KeyText.head (h : KeyText cs key) :
    ∃ c more, cs = c :: more ∧ isBlank c = false ∧ c ≠ '#' ∧ c ≠ '\uFEFF' := by
  cases h with
  | bare hne hbare =>
    cases cs with
    | nil => exact absurd rfl hne
    | cons c cs =>
      have hc := (List.forall_mem_cons.mp hbare).1
      refine ⟨c, cs, rfl, Bool.eq_false_iff.mpr fun hblank => ?_, ?_, ?_⟩
      · simp only [isBlank, Bool.or_eq_true, beq_iff_eq] at hblank
        rcases hblank with rfl | rfl <;> exact absurd hc (by decide)
      · rintro rfl
        exact absurd hc (by decide)
      · rintro rfl
        exact absurd hc (by decide)
  | quoted _ => exact ⟨_, _, rfl, rfl, by decide, by decide⟩
  | literal _ => exact ⟨_, _, rfl, rfl, by decide, by decide⟩

theorem Blanks.head_ne_mark {tail : List Char} (h : Blanks cs)
    (htail : tail.head? ≠ some '\uFEFF') : (cs ++ tail).head? ≠ some '\uFEFF' := by
  cases cs with
  | nil => exact htail
  | cons c _ =>
    rintro ⟨⟩
    exact absurd (List.forall_mem_cons.mp h).1 (by decide)

theorem KeyText.head_ne_mark {tail : List Char} (h : KeyText cs key) :
    (cs ++ tail).head? ≠ some '\uFEFF' := by
  obtain ⟨c, _, rfl, _, _, hmark⟩ := h.head
  simpa using hmark

/-- No line begins with a mark of the byte order. -/
theorem Line.head_ne_mark (h : Line cs as) : cs.head? ≠ some '\uFEFF' := by
  cases h with
  | empty hend =>
    cases hend with
    | plain hblanks =>
      have hnil : ([] : List Char).head? ≠ some '\uFEFF' := by simp
      simpa using hblanks.head_ne_mark hnil
    | comment hblanks _ => exact hblanks.head_ne_mark (by simp)
  | assignment hbefore hk _ _ _ _ => exact hbefore.head_ne_mark hk.head_ne_mark

theorem Lines.head_ne_mark (h : Lines cs as) : cs.head? ≠ some '\uFEFF' := by
  cases h with
  | nil => simp
  | @cons cs _ _ _ _ hline hnl _ =>
    cases cs with
    | nil => cases hnl <;> simp
    | cons c cs => exact hline.head_ne_mark

theorem Body.head_ne_mark (h : Body cs as) : cs.head? ≠ some '\uFEFF' := by
  obtain @⟨front, _, _, _, hfront, hlast⟩ := h
  cases front with
  | nil => exact hlast.head_ne_mark
  | cons c front => exact hfront.head_ne_mark

end Document

end SmartCard
