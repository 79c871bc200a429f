-- SUMMARY: Readers of CBOR find the end of a value in the value itself, whatever bytes follow it.
import SmartCard.Cbor.Reader

/-!
# The extent of a value

A reader that takes a value from some bytes takes the same value from these bytes with more behind
them, and leaves those over (`SelfDelimiting`). So of two byte sequences that a reader takes to
their ends neither is the beginning of the other. This holds for every form in which a value may be
written. Where an extent is left open, the number of bytes only bounds how many values are read, so
that more bytes do not change what is read.
-/

namespace SmartCard.Cbor

variable {α β ρ : Type} {depth : Nat} {bytes rest : List UInt8}

/-- A reader that takes nothing from no bytes, and does not look beyond the end of a value. -/
structure SelfDelimiting (r : Reader α) : Prop where
  nil : ∀ depth, r depth [] = none
  append : ∀ {depth bytes a rest}, r depth bytes = some (a, rest) →
    ∀ more, r depth (bytes ++ more) = some (a, rest ++ more)

/-- A beginning that a reader takes to its end is followed by nothing that it takes, too. -/
theorem SelfDelimiting.eq_nil_of_append {r : Reader α} (h : SelfDelimiting r) {more : List UInt8}
    {a b : α} (hshort : r depth bytes = some (a, []))
    (hlong : r depth (bytes ++ more) = some (b, [])) : more = [] := by
  rw [h.append hshort, List.nil_append, Option.some.injEq, Prod.mk.injEq] at hlong
  exact hlong.2

/-! ## Heads -/

theorem readNumber_append {count high n : Nat} (h : readNumber count high bytes = some (n, rest))
    (more : List UInt8) : readNumber count high (bytes ++ more) = some (n, rest ++ more) := by
  induction count generalizing high bytes with
  | zero =>
    cases h
    rfl
  | succ count ih =>
    cases bytes with
    | nil => cases h
    | cons b bytes => exact ih h

theorem readHead_append {head : Head} (h : readHead bytes = some (head, rest))
    (more : List UInt8) : readHead (bytes ++ more) = some (head, rest ++ more) := by
  cases bytes with
  | nil => cases h
  | cons b bytes =>
    rw [List.cons_append]
    unfold readHead at h ⊢
    dsimp only at h ⊢
    split at h
    next hshort =>
      cases h
      rw [if_pos hshort]
    next hshort =>
      rw [if_neg hshort]
      split at h
      next hlong =>
        obtain ⟨⟨n, tail⟩, hnumber, heq⟩ := Option.map_eq_some_iff.mp h
        cases heq
        rw [if_pos hlong, readNumber_append hnumber]
        rfl
      next hlong =>
        rw [if_neg hlong]
        split at h
        next hopen =>
          cases h
          rw [if_pos hopen]
        next => cases h

theorem untag_append {inner : Nat} (h : untag depth bytes = some (inner, rest))
    (more : List UInt8) : untag depth (bytes ++ more) = some (inner, rest ++ more) := by
  fun_induction untag depth bytes with
  | case1 => cases h
  | case2 => cases h
  | case3 bytes n tail hhead depth ih =>
    unfold untag
    rw [readHead_append hhead]
    exact ih h
  | case4 depth bytes found htag hhead =>
    cases h
    obtain ⟨⟨major, number⟩, tail⟩ := found
    unfold untag
    rw [readHead_append hhead]
    split
    next heq => cases heq
    next heq =>
      cases heq
      exact absurd rfl (htag _ _)
    next => rfl

theorem untag_nil (depth : Nat) : untag depth [] = none := by
  unfold untag
  rfl

theorem itemHead_append {inner : Nat} {head : Head}
    (h : itemHead depth bytes = some (inner, head, rest)) (more : List UInt8) :
    itemHead depth (bytes ++ more) = some (inner, head, rest ++ more) := by
  unfold itemHead at h ⊢
  rcases huntag : untag depth bytes with _ | ⟨inner', tail⟩
  · rw [huntag] at h
    cases h
  · rw [huntag] at h
    obtain ⟨⟨head', rest'⟩, hhead, heq⟩ := Option.map_eq_some_iff.mp h
    cases heq
    rw [untag_append huntag]
    dsimp only
    rw [readHead_append hhead]
    rfl

theorem itemHead_nil (depth : Nat) : itemHead depth [] = none := by
  unfold itemHead
  rw [untag_nil]

/-! ## Values -/

theorem SelfDelimiting.map {r : Reader α} (h : SelfDelimiting r) (f : α → β) :
    SelfDelimiting fun depth bytes => (r depth bytes).map fun (a, rest) => (f a, rest) where
  nil depth := by rw [h.nil, Option.map_none]
  append := by
    intro depth bytes b rest hread more
    obtain ⟨⟨a, tail⟩, ha, heq⟩ := Option.map_eq_some_iff.mp hread
    cases heq
    rw [h.append ha, Option.map_some]

theorem selfDelimiting_readNat (bound : Nat) : SelfDelimiting (readNat bound) where
  nil depth := by
    unfold readNat
    rw [itemHead_nil]
  append := by
    intro depth bytes n rest hread more
    unfold readNat at hread ⊢
    split at hread
    next hhead =>
      rw [itemHead_append hhead]
      dsimp only
      split at hread
      next hbound =>
        cases hread
        rw [if_pos hbound]
      next => cases hread
    next => cases hread

theorem selfDelimiting_readFlag : SelfDelimiting readFlag where
  nil depth := by
    unfold readFlag
    rw [untag_nil]
  append := by
    intro depth bytes b rest hread more
    unfold readFlag at hread ⊢
    split at hread
    next huntag =>
      cases hread
      rw [untag_append huntag]
      rfl
    next huntag =>
      cases hread
      rw [untag_append huntag]
      rfl
    next => cases hread

theorem selfDelimiting_readOptional (bound : Nat) : SelfDelimiting (readOptional bound) where
  nil depth := by
    unfold readOptional
    rw [(selfDelimiting_readNat bound).nil]
    rfl
  append := by
    intro depth bytes n rest hread more
    have hnumber := (selfDelimiting_readNat bound).map (some : Nat → Option Nat)
    cases bytes with
    | nil => cases (hnumber.nil depth).symm.trans hread
    | cons b bytes =>
      rw [List.cons_append]
      unfold readOptional at hread ⊢
      split at hread
      next heq =>
        cases heq
        cases hread
        rfl
      next hnull =>
        split
        next heq =>
          cases heq
          exact absurd rfl (hnull bytes)
        next => exact hnumber.append hread more

/-! ## Lists -/

theorem readItems_append {r : Reader α} (h : SelfDelimiting r) {count : Nat} {done xs : List α}
    (hread : readItems r depth count bytes done = some (xs, rest)) (more : List UInt8) :
    readItems r depth count (bytes ++ more) done = some (xs, rest ++ more) := by
  induction count generalizing bytes done with
  | zero =>
    cases hread
    rfl
  | succ count ih =>
    unfold readItems at hread ⊢
    split at hread
    next => cases hread
    next hitem =>
      rw [h.append hitem]
      exact ih hread

/-- More bytes leave room for more items, of which none is read. -/
theorem readItemsToBreak_append {r : Reader α} (h : SelfDelimiting r) {fuel fuel' : Nat}
    {done xs : List α} (hread : readItemsToBreak r depth fuel bytes done = some (xs, rest))
    (hfuel : fuel ≤ fuel') (more : List UInt8) :
    readItemsToBreak r depth fuel' (bytes ++ more) done = some (xs, rest ++ more) := by
  induction fuel generalizing bytes done fuel' with
  | zero => cases hread
  | succ fuel ih =>
    cases fuel' with
    | zero => exact absurd hfuel (Nat.not_succ_le_zero fuel)
    | succ fuel' =>
      have hfuel := Nat.le_of_succ_le_succ hfuel
      unfold readItemsToBreak at hread ⊢
      cases bytes with
      | nil =>
        rw [h.nil] at hread
        cases hread
      | cons b bytes =>
        rw [List.cons_append]
        split at hread
        next heq =>
          cases heq
          cases hread
          rfl
        next hbreak =>
          split at hread
          next => cases hread
          next hitem =>
            split
            next heq =>
              cases heq
              exact absurd rfl (hbreak bytes)
            next =>
              rw [← List.cons_append, h.append hitem]
              exact ih hread hfuel

theorem selfDelimiting_readList {r : Reader α} (h : SelfDelimiting r) :
    SelfDelimiting (readList r) where
  nil depth := by
    unfold readList
    rw [itemHead_nil]
  append := by
    intro depth bytes xs rest hread more
    unfold readList at hread ⊢
    split at hread
    next hhead =>
      rw [itemHead_append hhead]
      exact readItems_append h hread more
    next hhead =>
      rw [itemHead_append hhead]
      refine readItemsToBreak_append h hread ?_ more
      rw [List.length_append]
      exact Nat.le_add_right _ _
    next => cases hread

theorem selfDelimiting_readBytes : SelfDelimiting readBytes :=
  (selfDelimiting_readList (selfDelimiting_readNat 256)).map fun ns => ns.map UInt8.ofNat

/-! ## Keys -/

/-- A piece that is there in full is the same with more bytes behind it. -/
theorem split_append {count : Nat} (h : (bytes.take count).length = count) (more : List UInt8) :
    (bytes ++ more).take count = bytes.take count ∧
      (bytes ++ more).drop count = bytes.drop count ++ more := by
  have hle : count ≤ bytes.length := by
    rw [List.length_take] at h
    omega
  exact ⟨List.take_append_of_le_length hle, List.drop_append_of_le_length hle⟩

theorem readPieces_append {m : Major} {fuel fuel' : Nat} {done content : List UInt8}
    (hread : readPieces m fuel bytes done = some (content, rest)) (hfuel : fuel ≤ fuel')
    (more : List UInt8) :
    readPieces m fuel' (bytes ++ more) done = some (content, rest ++ more) := by
  induction fuel generalizing bytes done fuel' with
  | zero => cases hread
  | succ fuel ih =>
    cases fuel' with
    | zero => exact absurd hfuel (Nat.not_succ_le_zero fuel)
    | succ fuel' =>
      have hfuel := Nat.le_of_succ_le_succ hfuel
      unfold readPieces at hread ⊢
      cases bytes with
      | nil => cases hread
      | cons b bytes =>
        rw [List.cons_append]
        split at hread
        next heq =>
          cases heq
          cases hread
          rfl
        next hbreak =>
          split at hread
          next major count tail hhead =>
            split
            next heq =>
              cases heq
              exact absurd rfl (hbreak bytes)
            next =>
              rw [← List.cons_append, readHead_append hhead]
              dsimp only at hread ⊢
              split at hread
              next hpiece =>
                obtain ⟨htake, hdrop⟩ := split_append hpiece.2 more
                rw [htake, hdrop, if_pos hpiece]
                exact ih hread hfuel
              next => cases hread
          next => cases hread

theorem readString_append {m : Major} {count : Option Nat} {content : List UInt8}
    (hread : readString m count bytes = some (content, rest)) (more : List UInt8) :
    readString m count (bytes ++ more) = some (content, rest ++ more) := by
  unfold readString at hread ⊢
  cases count with
  | none =>
    refine readPieces_append hread ?_ more
    rw [List.length_append]
    exact Nat.le_add_right _ _
  | some count =>
    dsimp only at hread ⊢
    split at hread
    next hcontent =>
      cases hread
      obtain ⟨htake, hdrop⟩ := split_append hcontent more
      rw [htake, hdrop, if_pos hcontent]
    next => cases hread

/-- The key that a string spells, if it is one of the names. -/
theorem readName_append {names : List (List UInt8)} {m : Major} {count : Option Nat} {i : Nat}
    (hread : ((readString m count bytes).bind fun (key, rest) =>
      (names.findIdx? (· == key)).map fun i => (i, rest)) = some (i, rest)) (more : List UInt8) :
    ((readString m count (bytes ++ more)).bind fun (key, rest) =>
      (names.findIdx? (· == key)).map fun i => (i, rest)) = some (i, rest ++ more) := by
  obtain ⟨⟨key, tail⟩, hkey, hname⟩ := Option.bind_eq_some_iff.mp hread
  obtain ⟨j, hfound, heq⟩ := Option.map_eq_some_iff.mp hname
  cases heq
  rw [readString_append hkey, Option.bind_some]
  dsimp only
  rw [hfound, Option.map_some]

theorem selfDelimiting_readKey (names : List (List UInt8)) : SelfDelimiting (readKey names) where
  nil depth := by
    unfold readKey
    rw [itemHead_nil]
  append := by
    intro depth bytes i rest hread more
    unfold readKey at hread ⊢
    split at hread
    next hhead =>
      rw [itemHead_append hhead]
      dsimp only
      split at hread
      next hbound =>
        cases hread
        rw [if_pos hbound]
      next => cases hread
    next hhead =>
      rw [itemHead_append hhead]
      exact readName_append hread more
    next hhead =>
      rw [itemHead_append hhead]
      exact readName_append hread more
    next => cases hread

/-! ## Records -/

theorem SelfDelimiting.once {r : Reader α} (h : SelfDelimiting r) (old : Option α) (put : α → ρ) :
    SelfDelimiting (Cbor.once old r put) := by
  unfold Cbor.once
  cases old with
  | none => exact h.map put
  | some _ => exact ⟨fun _ => rfl, nofun⟩

/-- A reader that takes nothing at all. -/
theorem selfDelimiting_none : SelfDelimiting (fun _ _ => none : Reader α) := ⟨fun _ => rfl, nofun⟩

namespace RecordReader

variable {r : RecordReader ρ} {known all : ρ}

/-- Whether the fields of a record find their ends. -/
def FieldsDelimited (r : RecordReader ρ) : Prop := ∀ i known, SelfDelimiting (r.field i known)

theorem selfDelimiting_entry (h : r.FieldsDelimited) (known : ρ) :
    SelfDelimiting (r.entry known) where
  nil depth := by
    unfold entry
    rw [(selfDelimiting_readKey r.names).nil]
  append := by
    intro depth bytes all rest hread more
    unfold entry at hread ⊢
    split at hread
    next => cases hread
    next i tail hkey =>
      rw [(selfDelimiting_readKey r.names).append hkey]
      exact (h i known).append hread more

theorem entries_append (h : r.FieldsDelimited) {count : Nat}
    (hread : r.entries depth count known bytes = some (all, rest)) (more : List UInt8) :
    r.entries depth count known (bytes ++ more) = some (all, rest ++ more) := by
  induction count generalizing bytes known with
  | zero =>
    cases hread
    rfl
  | succ count ih =>
    unfold entries at hread ⊢
    split at hread
    next => cases hread
    next hentry =>
      rw [(selfDelimiting_entry h known).append hentry]
      exact ih hread

theorem entriesToBreak_append (h : r.FieldsDelimited) {fuel fuel' : Nat}
    (hread : r.entriesToBreak depth fuel known bytes = some (all, rest)) (hfuel : fuel ≤ fuel')
    (more : List UInt8) :
    r.entriesToBreak depth fuel' known (bytes ++ more) = some (all, rest ++ more) := by
  induction fuel generalizing bytes known fuel' with
  | zero => cases hread
  | succ fuel ih =>
    cases fuel' with
    | zero => exact absurd hfuel (Nat.not_succ_le_zero fuel)
    | succ fuel' =>
      have hfuel := Nat.le_of_succ_le_succ hfuel
      unfold entriesToBreak at hread ⊢
      cases bytes with
      | nil =>
        rw [(selfDelimiting_entry h known).nil] at hread
        cases hread
      | cons b bytes =>
        rw [List.cons_append]
        split at hread
        next heq =>
          cases heq
          cases hread
          rfl
        next hbreak =>
          split at hread
          next => cases hread
          next hentry =>
            split
            next heq =>
              cases heq
              exact absurd rfl (hbreak bytes)
            next =>
              rw [← List.cons_append, (selfDelimiting_entry h known).append hentry]
              exact ih hread hfuel

theorem values_append (h : r.FieldsDelimited) {positions : List Nat}
    (hread : r.values depth positions known bytes = some (all, rest)) (more : List UInt8) :
    r.values depth positions known (bytes ++ more) = some (all, rest ++ more) := by
  induction positions generalizing bytes known with
  | nil =>
    cases hread
    rfl
  | cons i positions ih =>
    unfold values at hread ⊢
    split at hread
    next => cases hread
    next hfield =>
      rw [(h i known).append hfield]
      exact ih hread

/-- A record finds its end in every form if its fields do. -/
theorem selfDelimiting_read (h : r.FieldsDelimited) : SelfDelimiting r.read where
  nil depth := by
    unfold read
    rw [itemHead_nil]
  append := by
    intro depth bytes all rest hread more
    unfold read at hread ⊢
    split at hread
    next hhead =>
      rw [itemHead_append hhead]
      exact entries_append h hread more
    next hhead =>
      rw [itemHead_append hhead]
      refine entriesToBreak_append h hread ?_ more
      rw [List.length_append]
      exact Nat.le_add_right _ _
    next hhead =>
      rw [itemHead_append hhead]
      dsimp only
      split at hread
      next hcount =>
        rw [if_pos hcount]
        exact values_append h hread more
      next => cases hread
    next hhead =>
      rw [itemHead_append hhead]
      dsimp only
      split at hread
      next hvalues =>
        cases hread
        rw [values_append h hvalues]
        rfl
      next => cases hread
    next => cases hread

/-- So does a record that has to be complete. -/
theorem selfDelimiting_finish (h : r.FieldsDelimited) (finish : ρ → Option β) :
    SelfDelimiting (fun depth bytes => do
      let (p, rest) ← r.read depth bytes
      pure (← finish p, rest) : Reader β) where
  nil depth := by
    rw [(selfDelimiting_read h).nil]
    rfl
  append := by
    intro depth bytes b rest hread more
    obtain ⟨⟨p, tail⟩, hp, hfinish⟩ := Option.bind_eq_some_iff.mp hread
    obtain ⟨b', hb, heq⟩ := Option.bind_eq_some_iff.mp hfinish
    cases heq
    rw [(selfDelimiting_read h).append hp, Option.bind_eq_bind, Option.bind_some]
    dsimp only
    rw [hb]
    rfl

end RecordReader

end SmartCard.Cbor
