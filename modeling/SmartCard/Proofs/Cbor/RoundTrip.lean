-- SUMMARY: What is written as CBOR in its shortest form is read back, whatever bytes follow it.
import Mathlib.Algebra.Ring.Nat
import SmartCard.Cbor.Reader
import SmartCard.Cbor.Writer

/-!
# CBOR round trips

`Reads` says that a reader takes a value from the front of its written form and leaves the rest
alone. It holds for heads, numbers, flags and lists, and for each key of a record, so that the
readers of records are followed field by field.
-/

namespace SmartCard.Cbor

/-! ## Heads -/

theorem readNumber_numberBytes (count n high : Nat) (rest : List UInt8) :
    readNumber count high (numberBytes count n ++ rest) =
      some (high * 256 ^ count + n % 256 ^ count, rest) := by
  induction count generalizing high with
  | zero => simp [readNumber, numberBytes, Nat.mod_one]
  | succ count ih =>
    rw [numberBytes, List.cons_append, readNumber, ih]
    have hbyte : (UInt8.ofNat (n >>> (8 * count))).toNat = n / 256 ^ count % 256 := by
      rw [UInt8.toNat_ofNat', Nat.shiftRight_eq_div_pow, Nat.pow_mul]
    have hsplit : n % 256 ^ (count + 1) =
        n % 256 ^ count + 256 ^ count * (n / 256 ^ count % 256) := by
      rw [Nat.pow_succ, Nat.mod_mul]
    have hsum : (high * 256 + n / 256 ^ count % 256) * 256 ^ count + n % 256 ^ count =
        high * 256 ^ (count + 1) + n % 256 ^ (count + 1) := by
      rw [hsplit, Nat.pow_succ, Nat.add_mul, Nat.mul_comm (256 ^ count) 256, ← Nat.mul_assoc,
        Nat.mul_comm (256 ^ count)]
      omega
    rw [hbyte, hsum]

theorem toNat_leadByte (m : Major) {info : Nat} (h : info < 32) :
    (leadByte m info).toNat = 32 * m.code + info := by
  have hcode : m.code ≤ 7 := by cases m <;> decide
  rw [leadByte, UInt8.toNat_ofNat']
  exact Nat.mod_eq_of_lt (by omega)

theorem ofByte_leadByte (m : Major) {info : Nat} (h : info < 32) :
    Major.ofByte (leadByte m info) = m := by
  have hdiv : (leadByte m info).toNat / 32 = m.code := by
    rw [toNat_leadByte m h]
    omega
  unfold Major.ofByte
  rw [hdiv]
  cases m <;> rfl

theorem readHead_short (m : Major) {n : Nat} (h : n < 24) (rest : List UInt8) :
    readHead (leadByte m n :: rest) = some (⟨m, some n⟩, rest) := by
  have hinfo : (leadByte m n).toNat % 32 = n := by
    rw [toNat_leadByte m (by omega)]
    omega
  simp only [readHead, hinfo, h, if_true, ofByte_leadByte m (by omega : n < 32)]

theorem readHead_long (m : Major) {info n : Nat} (hlow : 24 ≤ info) (hhigh : info < 28)
    (hn : n < 256 ^ (1 <<< (info - 24))) (rest : List UInt8) :
    readHead (leadByte m info :: numberBytes (1 <<< (info - 24)) n ++ rest) =
      some (⟨m, some n⟩, rest) := by
  have hinfo : (leadByte m info).toNat % 32 = info := by
    rw [toNat_leadByte m (by omega)]
    omega
  rw [List.cons_append, readHead]
  dsimp only
  rw [hinfo, if_neg (by omega), if_pos hhigh, ofByte_leadByte m (by omega), readNumber_numberBytes,
    Nat.mod_eq_of_lt hn, Nat.zero_mul, Nat.zero_add]
  rfl

theorem readHead_head (m : Major) {n : Nat} (h : n < UInt64.size) (rest : List UInt8) :
    readHead (head m n ++ rest) = some (⟨m, some n⟩, rest) := by
  unfold head
  split
  next hn => exact readHead_short m hn rest
  next =>
    split
    next hn => exact @readHead_long m 24 n (by decide) (by decide) (by simpa using hn) rest
    next =>
      split
      next hn => exact @readHead_long m 25 n (by decide) (by decide) (by simpa using hn) rest
      next =>
        split
        next hn => exact @readHead_long m 26 n (by decide) (by decide) (by simpa using hn) rest
        next => exact @readHead_long m 27 n (by decide) (by decide) (by simpa using h) rest

theorem head_eq_cons (m : Major) (n : Nat) :
    ∃ info rest, info < 32 ∧ head m n = leadByte m info :: rest := by
  unfold head
  split
  next hn => exact ⟨n, [], by omega, rfl⟩
  next =>
    split
    · exact ⟨24, _, by decide, rfl⟩
    · split
      · exact ⟨25, _, by decide, rfl⟩
      · split
        · exact ⟨26, _, by decide, rfl⟩
        · exact ⟨27, _, by decide, rfl⟩

theorem length_head_pos (m : Major) (n : Nat) : 0 < (head m n).length := by
  obtain ⟨info, rest, _, heq⟩ := head_eq_cons m n
  rw [heq]
  exact Nat.succ_pos _

/-- Only tags are skipped. -/
theorem itemHead_head {m : Major} (hm : m ≠ .tag) {n : Nat} (h : n < UInt64.size) (depth : Nat)
    (rest : List UInt8) : itemHead depth (head m n ++ rest) = some (depth, ⟨m, some n⟩, rest) := by
  have huntag : untag depth (head m n ++ rest) = some (depth, head m n ++ rest) := by
    unfold untag
    rw [readHead_head m h]
    split
    next heq => cases heq
    next heq =>
      cases heq
      exact absurd rfl hm
    next => rfl
  unfold itemHead
  rw [huntag]
  dsimp only
  rw [readHead_head m h]
  rfl

/-! ## Values -/

/-- A reader takes a value from the front of its written form, given room for some nesting. -/
def Reads {α : Type} (nesting : Nat) (r : Reader α) (written : List UInt8) (a : α) : Prop :=
  ∀ depth rest, nesting ≤ depth → r depth (written ++ rest) = some (a, rest)

theorem reads_number {bound n : Nat} (h : n < bound) (hn : n < UInt64.size) :
    Reads 0 (readNat bound) (number n) n := by
  intro depth rest _
  unfold readNat number
  rw [itemHead_head (by decide) hn]
  exact if_pos h

theorem reads_flag (b : Bool) : Reads 0 readFlag (flag b) b := by
  intro depth rest _
  cases b
  · have huntag : untag depth (0xf4 :: rest) = some (depth, 0xf4 :: rest) := by
      unfold untag
      rfl
    show readFlag depth (0xf4 :: rest) = _
    unfold readFlag
    rw [huntag]
    rfl
  · have huntag : untag depth (0xf5 :: rest) = some (depth, 0xf5 :: rest) := by
      unfold untag
      rfl
    show readFlag depth (0xf5 :: rest) = _
    unfold readFlag
    rw [huntag]
    rfl

theorem reads_map {α β : Type} {nesting : Nat} {r : Reader α} {written : List UInt8} {a : α}
    (h : Reads nesting r written a) (f : α → β) :
    Reads nesting (fun depth bytes => (r depth bytes).map fun (a, rest) => (f a, rest))
      written (f a) := by
  intro depth rest hdepth
  simp only [h depth rest hdepth, Option.map_some]

theorem reads_optionalNumber {bound : Nat} {n : Option Nat}
    (h : ∀ k ∈ n, k < bound ∧ k < UInt64.size) :
    Reads 0 (readOptional bound) (optionalNumber n) n := by
  intro depth rest hdepth
  cases n with
  | none => rfl
  | some k =>
    obtain ⟨hbound, hk⟩ := h k rfl
    have hread := reads_number hbound hk depth rest hdepth
    obtain ⟨info, more, hinfo, heq⟩ := head_eq_cons .unsigned k
    have hfirst : leadByte .unsigned info ≠ 0xf6 := by
      intro hc
      have hnat := congrArg UInt8.toNat hc
      rw [toNat_leadByte .unsigned hinfo] at hnat
      have hcode : Major.unsigned.code = 0 := rfl
      have hvalue : (0xf6 : UInt8).toNat = 246 := rfl
      omega
    unfold optionalNumber readOptional
    split
    next heq' =>
      change head .unsigned k ++ rest = _ at heq'
      rw [heq, List.cons_append, List.cons.injEq] at heq'
      exact absurd heq'.1 hfirst
    next =>
      rw [hread]
      rfl

/-! ## Lists -/

theorem readItems_flatMap {α β : Type} {nesting : Nat} {r : Reader β} {f : α → List UInt8}
    {g : α → β} {xs : List α} (h : ∀ x ∈ xs, Reads nesting r (f x) (g x)) {depth : Nat}
    (hdepth : nesting ≤ depth) (rest : List UInt8) (done : List β) :
    readItems r depth xs.length (xs.flatMap f ++ rest) done =
      some (done.reverse ++ xs.map g, rest) := by
  induction xs generalizing done with
  | nil => simp [readItems]
  | cons x more ih =>
    rw [List.length_cons, readItems, List.flatMap_cons, List.append_assoc,
      h x List.mem_cons_self depth _ hdepth]
    dsimp only
    rw [ih fun y hy => h y (List.mem_cons_of_mem _ hy)]
    simp

theorem reads_list {α β : Type} {nesting : Nat} {r : Reader β} {f : α → List UInt8} {g : α → β}
    {xs : List α} (h : ∀ x ∈ xs, Reads nesting r (f x) (g x)) (hlength : xs.length < UInt64.size) :
    Reads (nesting + 1) (readList r) (list f xs) (xs.map g) := by
  intro depth rest hdepth
  obtain ⟨depth, rfl⟩ : ∃ d, depth = d + 1 := ⟨depth - 1, by omega⟩
  unfold readList list
  rw [List.append_assoc, itemHead_head (by decide) hlength]
  dsimp only
  rw [readItems_flatMap h (by omega)]
  rfl

theorem reads_byteList {bytes : List UInt8} (hlength : bytes.length < UInt64.size) :
    Reads 1 readBytes (byteList bytes) bytes := by
  have hitems : ∀ b ∈ bytes, Reads 0 (readNat 256) (number b.toNat) b.toNat := fun b _ =>
    reads_number b.toNat_lt (Nat.lt_trans b.toNat_lt (by decide))
  have hlist := reads_map (reads_list hitems hlength) fun ns => ns.map UInt8.ofNat
  rw [List.map_map] at hlist
  have hid : UInt8.ofNat ∘ UInt8.toNat = id := by
    funext b
    simp
  rw [hid, List.map_id] at hlist
  exact hlist

/-! ## Records -/

theorem reads_key {names : List (List UInt8)} {name : String} {i : Nat}
    (hname : names.findIdx? (· == asciiBytes name) = some i)
    (hlength : (asciiBytes name).length < UInt64.size) :
    Reads 0 (readKey names) (text name) i := by
  intro depth rest _
  unfold readKey text
  rw [List.append_assoc, itemHead_head (by decide) hlength]
  dsimp only
  unfold readString
  dsimp only
  rw [List.take_left, if_pos rfl, List.drop_left, Option.bind_some, hname]
  rfl

/-- Field by field, the written fields of a record take what is known of it from one state to
another. -/
inductive ReadsFields {ρ : Type} (r : RecordReader ρ) (nesting : Nat) :
    ρ → List (String × List UInt8) → ρ → Prop where
  | nil (known : ρ) : ReadsFields r nesting known [] known
  | cons {α : Type} {known known' : ρ} {name : String} {reader : Reader α} {depth : Nat}
      {written : List UInt8} {a : α} {fields : List (String × List UInt8)} (i : Nat) (put : α → ρ)
      (hname : r.names.findIdx? (· == asciiBytes name) = some i)
      (hlength : (asciiBytes name).length < UInt64.size)
      (hfield : r.field i known = once none reader put)
      (hread : Reads depth reader written a) (hdepth : depth ≤ nesting)
      (hfields : ReadsFields r nesting (put a) fields known') :
      ReadsFields r nesting known ((name, written) :: fields) known'

theorem ReadsFields.entries {ρ : Type} {r : RecordReader ρ} {nesting : Nat} {known known' : ρ}
    {fields : List (String × List UInt8)} (h : ReadsFields r nesting known fields known')
    {depth : Nat} (hdepth : nesting ≤ depth) (rest : List UInt8) :
    r.entries depth fields.length known
        (fields.flatMap (fun field => text field.1 ++ field.2) ++ rest) =
      some (known', rest) := by
  induction h with
  | nil known => rfl
  | cons i put hname hlength hfield hread hle hfields ih =>
    rw [List.length_cons, RecordReader.entries, RecordReader.entry, List.flatMap_cons,
      List.append_assoc,
      List.append_assoc, reads_key hname hlength depth _ (Nat.zero_le _)]
    dsimp only
    rw [hfield]
    unfold once
    rw [Option.isSome_none, if_neg Bool.false_ne_true, hread depth _ (Nat.le_trans hle hdepth)]
    exact ih

/-- A record whose fields are read, and complete. -/
theorem reads_record {ρ β : Type} {r : RecordReader ρ} {nesting : Nat} {known : ρ}
    {fields : List (String × List UInt8)} (h : ReadsFields r nesting r.start fields known)
    (hlength : fields.length < UInt64.size) {finish : ρ → Option β} {b : β}
    (hfinish : finish known = some b) :
    Reads (nesting + 1)
      (fun depth bytes => do
        let (p, rest) ← r.read depth bytes
        pure (← finish p, rest)) (record fields) b := by
  intro depth rest hdepth
  obtain ⟨depth, rfl⟩ : ∃ d, depth = d + 1 := ⟨depth - 1, by omega⟩
  unfold RecordReader.read record
  dsimp only
  rw [List.append_assoc, itemHead_head (by decide) hlength]
  dsimp only
  rw [h.entries (by omega) rest, Option.bind_eq_bind, Option.bind_some, hfinish]
  rfl

/-! ## Sizes -/

theorem length_le_flatMap {α : Type} {f : α → List UInt8} (h : ∀ x, 0 < (f x).length)
    (xs : List α) :
    xs.length ≤ (xs.flatMap f).length := by
  induction xs with
  | nil => exact Nat.le_refl _
  | cons x more ih =>
    have hx := h x
    rw [List.flatMap_cons, List.length_append, List.length_cons]
    omega

/-- A list of values has at least as many bytes as values. -/
theorem length_le_list {α : Type} {f : α → List UInt8} (h : ∀ x, 0 < (f x).length) (xs : List α) :
    xs.length ≤ (list f xs).length := by
  have hle := length_le_flatMap h xs
  unfold list
  rw [List.length_append]
  omega

theorem length_le_byteList (bytes : List UInt8) : bytes.length ≤ (byteList bytes).length :=
  length_le_list (fun _ => length_head_pos _ _) bytes

theorem length_le_flatMap_of_mem {α : Type} {f : α → List UInt8} {x : α} {xs : List α}
    (h : x ∈ xs) :
    (f x).length ≤ (xs.flatMap f).length := by
  induction xs with
  | nil => cases h
  | cons y more ih =>
    rw [List.flatMap_cons, List.length_append]
    rcases List.mem_cons.mp h with rfl | hmore
    · omega
    · have := ih hmore
      omega

/-- The written form of a record has room for that of each field. -/
theorem length_le_record {fields : List (String × List UInt8)} {field : String × List UInt8}
    (h : field ∈ fields) : field.2.length ≤ (record fields).length := by
  have hle := length_le_flatMap_of_mem (f := fun field => text field.1 ++ field.2) h
  rw [List.length_append] at hle
  unfold record
  rw [List.length_append]
  omega

theorem length_record_pos (fields : List (String × List UInt8)) : 0 < (record fields).length := by
  have hhead := length_head_pos .map fields.length
  unfold record
  rw [List.length_append]
  omega

theorem length_le_list_of_mem {α : Type} {f : α → List UInt8} {x : α} {xs : List α} (h : x ∈ xs) :
    (f x).length ≤ (list f xs).length := by
  have hle := length_le_flatMap_of_mem (f := f) h
  unfold list
  rw [List.length_append]
  omega

end SmartCard.Cbor
