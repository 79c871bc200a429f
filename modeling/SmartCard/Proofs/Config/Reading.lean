-- SUMMARY: Configuration documents are read by exactly their grammar.
import Mathlib.Data.List.TakeWhile
import SmartCard.Proofs.Config.Values

/-!
# Reading documents

`assignments?_eq_some_iff`: `assignments?` reads the well-formed documents and no other texts, and
finds the assignments that they make. The readers take as many characters as they can, while the
productions only say which characters may stand together. So each reader has two facts here: what it
takes is a production, and a production is taken as a whole when the character behind it cannot
belong to it (`Stops`).
-/

namespace SmartCard

namespace Document

variable {c : Char} {cs rest key : List Char} {value : Value}

/-! ## Keys -/

theorem mapM_digit?_eq_some_iff {ds : List Nat} :
    cs.mapM (digit? 16) = some ds ↔ List.Forall₂ Denotes cs ds := by
  induction cs generalizing ds with
  | nil => cases ds <;> simp
  | cons c cs ih =>
    rw [List.mapM_cons]
    constructor
    · intro h
      obtain ⟨d, hd, h⟩ := Option.bind_eq_some_iff.mp h
      obtain ⟨ds, hds, h⟩ := Option.bind_eq_some_iff.mp h
      obtain rfl := Option.some.inj h
      exact .cons (denotes_of_digit? hd).1 (ih.mp hds)
    · rintro (_ | ⟨hd, hds⟩)
      simp [digit?_of_denotes hd hd.lt, ih.mpr hds]

theorem toNat_ofNat_of_isValidChar {n : Nat} (h : n.isValidChar) : (Char.ofNat n).toNat = n := by
  have hof : Char.ofNat n = Char.ofNatAux n h := dif_pos h
  rw [hof]
  rfl

theorem charOfHex?_eq_some_iff : charOfHex? cs = some c ↔ Spells cs c := by
  have hcode : ∀ ds : List Nat,
      ds.foldl (fun n d => n * 16 + d) 0 = Nat.ofDigits 16 ds.reverse := by
    intro ds
    rw [Nat.ofDigits_eq_foldr, List.foldr_reverse]
    congr 1
    funext n d
    simp [Nat.mul_comm, Nat.add_comm]
  unfold charOfHex? Spells
  simp only [Option.bind_eq_some_iff, mapM_digit?_eq_some_iff, hcode]
  refine exists_congr fun ds => and_congr_right fun _ => ?_
  split
  · rename_i hvalid
    rw [Option.some_inj]
    constructor
    · rintro rfl
      exact (toNat_ofNat_of_isValidChar hvalid).symm
    · intro h
      rw [h, Char.ofNat_toNat]
  · rename_i hvalid
    constructor
    · rintro ⟨⟩
    · intro h
      exact absurd (h ▸ c.valid) hvalid

theorem consKey?_eq_some_iff {c? : Option Char} {more? : Option (List Char × List Char)} :
    consKey? c? more? = some (key, rest) ↔
      ∃ c more, c? = some c ∧ more? = some (more, rest) ∧ key = c :: more := by
  cases c? with
  | none => simp [consKey?]
  | some c =>
    cases more? with
    | none => simp [consKey?]
    | some more =>
      obtain ⟨more, rest'⟩ := more
      simp only [consKey?, Option.some.injEq, Prod.mk.injEq]
      constructor
      · rintro ⟨rfl, rfl⟩
        exact ⟨c, more, rfl, ⟨rfl, rfl⟩, rfl⟩
      · rintro ⟨_, _, rfl, ⟨rfl, rfl⟩, rfl⟩
        exact ⟨rfl, rfl⟩

theorem quotedKey?_of_quoted (h : Quoted cs key) :
    quotedKey? (cs ++ '"' :: rest) = some (key, rest) := by
  induction h with
  | nil => rfl
  | @plain c cs key htext hquote hslash _ ih =>
    rw [List.cons_append, quotedKey?, ih, if_pos htext]
    · rfl
    all_goals intros; contradiction
  | @escape e c cs key he _ ih =>
    rw [List.cons_append, List.cons_append, quotedKey?, ih, he]
    · rfl
    all_goals
      rintro _ _
      intros
      subst_vars
      simp [escaped?] at he
  | @code u digits c cs key hu hspell _ ih =>
    have hread := charOfHex?_eq_some_iff.mpr hspell
    generalize hcount : digits.length = count at hu
    cases hu with
    | two =>
      rcases digits with _ | ⟨_, _ | ⟨_, _ | _⟩⟩ <;> simp at hcount
      simp only [List.cons_append, List.nil_append, quotedKey?, hread, ih, consKey?]
    | four =>
      rcases digits with _ | ⟨_, _ | ⟨_, _ | ⟨_, _ | ⟨_, _ | _⟩⟩⟩⟩ <;> simp at hcount
      simp only [List.cons_append, List.nil_append, quotedKey?, hread, ih, consKey?]
    | eight =>
      rcases digits with _ | ⟨_, _ | ⟨_, _ | ⟨_, _ | ⟨_, _ | ⟨_, _ | ⟨_, _ | ⟨_, _ | ⟨_, _ | _⟩⟩⟩⟩⟩⟩⟩⟩ <;>
        simp at hcount
      simp only [List.cons_append, List.nil_append, quotedKey?, hread, ih, consKey?]

theorem quoted_of_quotedKey? (h : quotedKey? cs = some (key, rest)) :
    ∃ text, Quoted text key ∧ cs = text ++ '"' :: rest := by
  fun_induction quotedKey? cs generalizing key with
  | case1 => cases h
  | case2 rest' =>
    obtain ⟨rfl, rfl⟩ : [] = key ∧ rest' = rest := by simpa using h
    exact ⟨[], .nil, rfl⟩
  | case3 a b rest' ih =>
    obtain ⟨c, more, hc, hmore, rfl⟩ := consKey?_eq_some_iff.mp h
    obtain ⟨text, htext, rfl⟩ := ih hmore
    have hcode : Quoted ('\\' :: 'x' :: ([a, b] ++ text)) (c :: more) :=
      .code .two (charOfHex?_eq_some_iff.mp hc) htext
    exact ⟨_, hcode, rfl⟩
  | case4 a b c d rest' ih =>
    obtain ⟨ch, more, hc, hmore, rfl⟩ := consKey?_eq_some_iff.mp h
    obtain ⟨text, htext, rfl⟩ := ih hmore
    have hcode : Quoted ('\\' :: 'u' :: ([a, b, c, d] ++ text)) (ch :: more) :=
      .code .four (charOfHex?_eq_some_iff.mp hc) htext
    exact ⟨_, hcode, rfl⟩
  | case5 a b c d e f g k rest' ih =>
    obtain ⟨ch, more, hc, hmore, rfl⟩ := consKey?_eq_some_iff.mp h
    obtain ⟨text, htext, rfl⟩ := ih hmore
    have hcode : Quoted ('\\' :: 'U' :: ([a, b, c, d, e, f, g, k] ++ text)) (ch :: more) :=
      .code .eight (charOfHex?_eq_some_iff.mp hc) htext
    exact ⟨_, hcode, rfl⟩
  | case6 e rest' _ _ _ ih =>
    obtain ⟨c, more, hc, hmore, rfl⟩ := consKey?_eq_some_iff.mp h
    obtain ⟨text, htext, rfl⟩ := ih hmore
    exact ⟨_, .escape hc htext, rfl⟩
  | case7 c rest' hquote _ _ _ hslash ih =>
    obtain ⟨c', more, hc, hmore, rfl⟩ := consKey?_eq_some_iff.mp h
    obtain ⟨htext, rfl⟩ : isText c = true ∧ c = c' := by simpa using hc
    have hne : c ≠ '\\' := by
      intro heq
      cases rest' with
      | nil => cases hmore
      | cons e rest' => exact hslash e rest' heq rfl
    obtain ⟨text, hq, rfl⟩ := ih hmore
    exact ⟨_, .plain htext hquote hne hq, rfl⟩

theorem literalKey?_eq_some_iff : literalKey? cs = some (key, rest) ↔
    cs = key ++ apostrophe :: rest ∧ ∀ c ∈ key, isText c = true ∧ c ≠ apostrophe := by
  unfold literalKey?
  constructor
  · intro h
    have hcut := List.takeWhile_append_dropWhile (p := (· != apostrophe)) (l := cs)
    have hmem : ∀ c ∈ cs.takeWhile (· != apostrophe), c ≠ apostrophe := by
      intro c hc
      simpa using List.mem_takeWhile_imp hc
    generalize hfront : cs.takeWhile (· != apostrophe) = front at h hcut hmem
    rcases htail : cs.dropWhile (· != apostrophe) with _ | ⟨mark, tail⟩
    · simp [htail] at h
    · have hmark : mark = apostrophe := by
        have := List.head_dropWhile_not (· != apostrophe) (l := cs) (by simp [htail])
        simpa [htail] using this
      simp only [htail, Option.ite_none_right_eq_some, Option.some.injEq, Prod.mk.injEq,
        List.all_eq_true] at h
      obtain ⟨htext, rfl, rfl⟩ := h
      refine ⟨?_, fun c hc => ⟨htext c hc, hmem c hc⟩⟩
      rw [← hcut, htail, hmark]
  · rintro ⟨rfl, hkey⟩
    have hall : ∀ c ∈ key, (c != apostrophe) = true := fun c hc => by simpa using (hkey c hc).2
    have htake : (key ++ apostrophe :: rest).takeWhile (· != apostrophe) = key := by
      rw [List.takeWhile_append_of_pos hall]
      simp
    have hdrop : (key ++ apostrophe :: rest).dropWhile (· != apostrophe) = apostrophe :: rest := by
      rw [List.dropWhile_append_of_pos hall]
      simp
    have htext : key.all isText = true := List.all_eq_true.mpr fun c hc => (hkey c hc).1
    simp only [htake, hdrop, htext, if_true]

/-- What follows a key on its line, so that a bare key ends there. -/
def Stops (p : Char → Bool) (cs : List Char) : Prop := ∀ c ∈ cs.head?, p c = false

theorem takeWhile_of_stops {p : Char → Bool} (h : ∀ c ∈ cs, p c = true) (hrest : Stops p rest) :
    (cs ++ rest).takeWhile p = cs := by
  rw [List.takeWhile_append_of_pos h]
  cases rest with
  | nil => simp
  | cons c rest => simp [hrest c rfl]

theorem dropWhile_of_stops {p : Char → Bool} (h : ∀ c ∈ cs, p c = true) (hrest : Stops p rest) :
    (cs ++ rest).dropWhile p = rest := by
  rw [List.dropWhile_append_of_pos h]
  cases rest with
  | nil => simp
  | cons c rest => simp [hrest c rfl]

theorem key?_of_keyText (h : KeyText cs key) (hrest : Stops isBare rest) :
    key? (cs ++ rest) = some (key, rest) := by
  cases h with
  | bare hne hbare =>
    cases cs with
    | nil => exact absurd rfl hne
    | cons c cs =>
      obtain ⟨hc, hcs⟩ := List.forall_mem_cons.mp hbare
      rw [List.cons_append, key?, if_neg, if_pos hc, takeWhile_of_stops hcs hrest,
        dropWhile_of_stops hcs hrest]
      · rintro rfl
        exact absurd hc (by decide)
      · rintro rfl
        exact absurd hc (by decide)
  | quoted hq =>
    rw [List.cons_append, key?, List.append_assoc]
    exact quotedKey?_of_quoted hq
  | literal hkey =>
    rw [List.cons_append, key?, if_pos rfl, List.append_assoc]
    · exact literalKey?_eq_some_iff.mpr ⟨rfl, hkey⟩
    · decide

theorem keyText_of_key? (h : key? cs = some (key, rest)) :
    ∃ text, KeyText text key ∧ cs = text ++ rest := by
  unfold key? at h
  split at h
  · cases h
  · obtain ⟨text, hq, rfl⟩ := quoted_of_quotedKey? h
    exact ⟨_, .quoted hq, by simp⟩
  · rename_i c tail _
    split at h
    · rename_i hc
      obtain ⟨rfl, hkey⟩ := literalKey?_eq_some_iff.mp h
      exact ⟨_, .literal hkey, by simp [hc]⟩
    · split at h
      · rename_i hc
        obtain ⟨rfl, rfl⟩ := Prod.mk.inj (Option.some.inj h)
        refine ⟨c :: tail.takeWhile isBare, .bare (by simp) ?_, by simp⟩
        exact List.forall_mem_cons.mpr ⟨hc, fun _ hmem => List.mem_takeWhile_imp hmem⟩
      · cases h

/-! ## Lines -/

theorem isLineEnd_iff : isLineEnd cs = true ↔ LineEnd cs := by
  unfold isLineEnd
  constructor
  · intro h
    have hcut := List.takeWhile_append_dropWhile (p := isBlank) (l := cs)
    have hblanks : Blanks (cs.takeWhile isBlank) := fun c hc => List.mem_takeWhile_imp hc
    split at h
    · rename_i hrest
      rw [hrest, List.append_nil] at hcut
      exact hcut ▸ .plain hblanks
    · rename_i c comment hrest
      simp only [Bool.and_eq_true, beq_iff_eq, List.all_eq_true] at h
      obtain ⟨rfl, htext⟩ := h
      rw [← hcut, hrest]
      exact .comment hblanks htext
  · rintro (hblanks | ⟨hblanks, htext⟩)
    · have hend : Stops isBlank [] := by simp [Stops]
      have hdrop := dropWhile_of_stops hblanks hend
      rw [List.append_nil] at hdrop
      rw [hdrop]
    · rw [dropWhile_of_stops hblanks (by simp [Stops, isBlank])]
      simpa using htext

theorem stops_blanks {p : Char → Bool} (hblanks : Blanks cs)
    (hp : ∀ c, isBlank c = true → p c = false) (hrest : Stops p rest) : Stops p (cs ++ rest) := by
  cases cs with
  | nil => exact hrest
  | cons c cs =>
    rintro c' ⟨⟩
    exact hp c (List.forall_mem_cons.mp hblanks).1

theorem not_isBare_of_isBlank (h : isBlank c = true) : isBare c = false := by
  simp only [isBlank, Bool.or_eq_true, beq_iff_eq] at h
  rcases h with rfl | rfl <;> rfl

theorem LineEnd.stops (h : LineEnd cs) : Stops inWord cs := by
  have hblank : ∀ c, isBlank c = true → inWord c = false := by
    intro c hc
    simp [inWord, hc]
  cases h with
  | plain hblanks =>
    have hend : Stops inWord [] := by simp [Stops]
    have hstops := stops_blanks hblanks hblank hend
    rwa [List.append_nil] at hstops
  | comment hblanks _ => exact stops_blanks hblanks hblank (by simp [Stops, inWord])

/-- How the value of an assignment is taken, and its line ended. -/
theorem assignment?_apply {k between after : List Char} (hk : KeyText k key)
    (hbetween : Blanks between) (hafter : Blanks after) (hrest : Stops isBlank rest) :
    assignment? (k ++ (between ++ '=' :: (after ++ rest))) =
      (Value.ofChars? (rest.takeWhile inWord)).bind fun value =>
        if isLineEnd (rest.dropWhile inWord) then some ⟨String.ofList key, value⟩ else none := by
  have hbare : Stops isBare ('=' :: (after ++ rest)) := by simp [Stops, isBare]
  have hblank : Stops isBlank ('=' :: (after ++ rest)) := by simp [Stops, isBlank]
  have hkey := key?_of_keyText hk (stops_blanks hbetween (fun _ => not_isBare_of_isBlank) hbare)
  have hequals := dropWhile_of_stops hbetween hblank
  have hvalue := dropWhile_of_stops hafter hrest
  have hword : (fun c => !isBlank c && c != '#') = inWord := rfl
  simp only [assignment?, hkey, hequals, hvalue, hword]
  cases Value.ofChars? (rest.takeWhile inWord) <;> rfl

theorem stops_isBlank (hne : cs ≠ []) (hword : ∀ c ∈ cs, inWord c = true) :
    Stops isBlank (cs ++ rest) := by
  obtain ⟨c, cs, rfl⟩ := List.exists_cons_of_ne_nil hne
  rintro c' ⟨⟩
  have := (List.forall_mem_cons.mp hword).1
  simp only [inWord, Bool.and_eq_true, Bool.not_eq_true'] at this
  exact this.1

theorem assignment?_eq_some {k between after v : List Char} (hk : KeyText k key)
    (hbetween : Blanks between) (hafter : Blanks after) (hv : ValueText v value)
    (hend : LineEnd rest) :
    assignment? (k ++ (between ++ '=' :: (after ++ (v ++ rest)))) =
      some ⟨String.ofList key, value⟩ := by
  have hword : ∀ c ∈ v, inWord c = true := fun c hc => inWord_of_isPlain (hv.plain c hc)
  rw [assignment?_apply hk hbetween hafter (stops_isBlank hv.ne_nil hword),
    takeWhile_of_stops hword hend.stops, dropWhile_of_stops hword hend.stops,
    ofChars?_eq_some_iff.mpr hv]
  exact if_pos (isLineEnd_iff.mpr hend)

/-- A line with content is read from its content on. -/
theorem line?_apply {before : List Char} (hbefore : Blanks before) (hblank : isBlank c = false)
    (hcomment : c ≠ '#') :
    line? (before ++ c :: rest) = (assignment? (c :: rest)).map ([·]) := by
  have hstops : Stops isBlank (c :: rest) := by simp [Stops, hblank]
  have hdrop := dropWhile_of_stops hbefore hstops
  rw [line?, if_neg, hdrop]
  rw [isLineEnd, hdrop]
  simp [hcomment]

theorem line?_of_line {as : List Assignment} (h : Line cs as) : line? cs = some as := by
  cases h with
  | empty hend => rw [line?, if_pos (isLineEnd_iff.mpr hend)]
  | assignment hbefore hk hbetween hafter hv hend =>
    have hread := assignment?_eq_some hk hbetween hafter hv hend
    obtain ⟨c, more, rfl, hblank, hcomment, _⟩ := hk.head
    rw [List.cons_append] at hread ⊢
    rw [line?_apply hbefore hblank hcomment, hread, Option.map_some]

/-- What an assignment that was read is made of. -/
theorem exists_of_assignment? {a : Assignment} (h : assignment? cs = some a) :
    ∃ k between after v rest key, KeyText k key ∧ Blanks between ∧ Blanks after ∧
      ValueText v a.value ∧ LineEnd rest ∧ a.key = String.ofList key ∧
        cs = k ++ (between ++ '=' :: (after ++ (v ++ rest))) := by
  unfold assignment? at h
  split at h
  · cases h
  · rename_i key rest hkey
    obtain ⟨k, hk, rfl⟩ := keyText_of_key? hkey
    split at h
    · rename_i tail hequals
      dsimp only at h
      split at h
      · cases h
      · rename_i value hvalue
        obtain ⟨hend, ha⟩ := Option.ite_none_right_eq_some.mp h
        obtain rfl := Option.some.inj ha
        refine ⟨k, rest.takeWhile isBlank, tail.takeWhile isBlank, _, _, key, hk,
          fun _ hc => List.mem_takeWhile_imp hc, fun _ hc => List.mem_takeWhile_imp hc,
          ofChars?_eq_some_iff.mp hvalue, isLineEnd_iff.mp hend, rfl, ?_⟩
        rw [List.takeWhile_append_dropWhile, List.takeWhile_append_dropWhile, ← hequals,
          List.takeWhile_append_dropWhile]
    · cases h

theorem line_of_line? {as : List Assignment} (h : line? cs = some as) : Line cs as := by
  unfold line? at h
  split at h
  · rename_i hend
    obtain rfl := Option.some.inj h
    exact .empty (isLineEnd_iff.mp hend)
  · obtain ⟨a, ha, rfl⟩ := Option.map_eq_some_iff.mp h
    obtain ⟨k, between, after, v, rest, key, hk, hbetween, hafter, hv, hend, hkey, hcs⟩ :=
      exists_of_assignment? ha
    rw [← List.takeWhile_append_dropWhile (p := isBlank) (l := cs), hcs,
      show [a] = [⟨String.ofList key, a.value⟩] by rw [← hkey]]
    exact .assignment (fun _ hc => List.mem_takeWhile_imp hc) hk hbetween hafter hv hend

/-! ## Texts -/

variable {as more : List Assignment} {nl line text : List Char} {ls : List (List Char)}

theorem lines_append (hcs : ∀ c ∈ cs, inLine c = true) (hnl : NewLine nl) :
    lines (cs ++ (nl ++ rest)) = cs :: lines rest := by
  induction cs with
  | nil => cases hnl <;> rfl
  | cons c cs ih =>
    obtain ⟨hc, hmore⟩ := List.forall_mem_cons.mp hcs
    obtain ⟨hfeed, hreturn⟩ := inLine_iff.mp hc
    rw [List.cons_append, lines, ih hmore]
    · intro h
      exact hfeed h
    · intro _ h
      exact absurd h hreturn

theorem lines_eq_singleton (hcs : ∀ c ∈ cs, inLine c = true) : lines cs = [cs] := by
  induction cs with
  | nil => rfl
  | cons c cs ih =>
    obtain ⟨hc, hmore⟩ := List.forall_mem_cons.mp hcs
    obtain ⟨hfeed, hreturn⟩ := inLine_iff.mp hc
    rw [lines, ih hmore]
    · intro h
      exact hfeed h
    · intro _ h
      exact absurd h hreturn

theorem lines_ne_nil : lines cs ≠ [] := by
  fun_cases lines cs <;> simp

/-- The first of the lines that a text is cut into, and what comes behind it. -/
theorem lines_eq_cons (h : lines cs = line :: ls) :
    (ls = [] ∧ cs = line) ∨
      ∃ nl rest, NewLine nl ∧ cs = line ++ (nl ++ rest) ∧ lines rest = ls := by
  fun_induction lines cs generalizing line ls with
  | case1 =>
    obtain ⟨rfl, rfl⟩ := List.cons.inj h
    exact .inl ⟨rfl, rfl⟩
  | case2 rest _ =>
    obtain ⟨rfl, rfl⟩ := List.cons.inj h
    exact .inr ⟨_, rest, .short, rfl, rfl⟩
  | case3 rest _ =>
    obtain ⟨rfl, rfl⟩ := List.cons.inj h
    exact .inr ⟨_, rest, .long, rfl, rfl⟩
  | case4 c rest _ _ hnone => exact absurd hnone lines_ne_nil
  | case5 c rest _ _ line' ls' hlines ih =>
    obtain ⟨rfl, rfl⟩ := List.cons.inj h
    rcases ih hlines with ⟨hlast, hrest⟩ | ⟨nl, tail, hnl, hrest, htail⟩
    · exact .inl ⟨hlast, by rw [hrest]⟩
    · exact .inr ⟨nl, tail, hnl, by rw [hrest, List.cons_append], htail⟩

theorem mapM_lines_of_lines (h : Lines cs as) {last : List Char} {ass : List (List Assignment)}
    (hlast : (lines last).mapM line? = some ass) :
    ∃ all, (lines (cs ++ last)).mapM line? = some all ∧ all.flatten = as ++ ass.flatten := by
  induction h with
  | nil => exact ⟨ass, hlast, rfl⟩
  | @cons cs as nl rest more hline hnl _ ih =>
    obtain ⟨all, hall, hflat⟩ := ih
    refine ⟨as :: all, ?_, by rw [List.flatten_cons, hflat, List.append_assoc]⟩
    rw [List.append_assoc, List.append_assoc, lines_append hline.inLine hnl, List.mapM_cons,
      line?_of_line hline, hall]
    rfl

theorem mapM_lines_of_body (h : Body cs as) :
    ((lines cs).mapM line?).map List.flatten = some as := by
  obtain @⟨front, as, last, more, hfront, hlast⟩ := h
  have hread : (lines last).mapM line? = some [more] := by
    rw [lines_eq_singleton hlast.inLine, List.mapM_cons, line?_of_line hlast]
    rfl
  obtain ⟨all, hall, hflat⟩ := mapM_lines_of_lines hfront hread
  rw [hall, Option.map_some, hflat, List.flatten_singleton]

theorem body_of_mapM_lines {ass : List (List Assignment)}
    (h : (lines cs).mapM line? = some ass) : Body cs ass.flatten := by
  generalize hls : lines cs = ls at h
  induction ls generalizing cs ass with
  | nil => exact absurd hls lines_ne_nil
  | cons line ls ih =>
    rw [List.mapM_cons] at h
    obtain ⟨as, has, h⟩ := Option.bind_eq_some_iff.mp h
    obtain ⟨more, hmore, h⟩ := Option.bind_eq_some_iff.mp h
    obtain rfl := Option.some.inj h
    have hline := line_of_line? has
    rw [List.flatten_cons]
    rcases lines_eq_cons hls with ⟨rfl, rfl⟩ | ⟨nl, rest, hnl, rfl, hrest⟩
    · rw [List.mapM_nil] at hmore
      obtain rfl := Option.some.inj hmore
      rw [List.flatten_nil, List.append_nil]
      exact .mk .nil hline
    · have hbody := ih hrest hmore
      generalize more.flatten = others at hbody ⊢
      obtain ⟨hfront, hlast⟩ := hbody
      have := Body.mk (.cons hline hnl hfront) hlast
      rwa [List.append_assoc, List.append_assoc, List.append_assoc] at this

theorem mapM_lines_eq_some_iff :
    ((lines cs).mapM line?).map List.flatten = some as ↔ Body cs as := by
  refine ⟨fun h => ?_, mapM_lines_of_body⟩
  obtain ⟨ass, hass, rfl⟩ := Option.map_eq_some_iff.mp h
  exact body_of_mapM_lines hass

/-- A mark of the byte order is passed over. -/
theorem assignments?_mark {mark : List Char} (hmark : Mark mark)
    (hcs : cs.head? ≠ some '\uFEFF') :
    assignments? (mark ++ cs) = ((lines cs).mapM line?).map List.flatten := by
  cases hmark with
  | absent =>
    rw [List.nil_append]
    unfold assignments?
    dsimp only
    split
    · exact absurd rfl hcs
    · rfl
  | present => rfl

/-- The texts that can be read are the well-formed documents, and what is read are the assignments
that they make. -/
theorem assignments?_eq_some_iff : assignments? text = some as ↔ Written text as := by
  constructor
  · intro h
    unfold assignments? at h
    dsimp only at h
    split at h
    · exact .mk .present (mapM_lines_eq_some_iff.mp h)
    · exact .mk .absent (mapM_lines_eq_some_iff.mp h)
  · rintro ⟨hmark, hbody⟩
    rw [assignments?_mark hmark hbody.head_ne_mark]
    exact mapM_lines_of_body hbody

end Document

end SmartCard
