-- SUMMARY: Range operations that only read: comparing two ranges, and finding a value.
import SmartCard.Range.Transfer

/-!
# Comparing and finding

Both operations take elements as unsigned words. Comparing is lexicographic; finding returns the
least index that holds the value. They report how many elements they examined.

Elements are stored most significant byte first, so it makes no difference whether words are taken
or the bytes that are stored: not to the result of a comparison, nor to how far it comes
(`compareElements_words`), nor to what is found (`findIdx?_words`).
-/

namespace SmartCard.Range

variable {α β : Type} [LT α] [DecidableLT α] [LT β] [DecidableLT β] {width : Nat}

/-- The order of two element sequences at their first difference: -1, 0 or 1, and the number of
elements examined, of which `examined` came before. -/
def compareElements (examined : Nat) : List α → List α → Int8 × Nat
  | x :: xs, y :: ys =>
    if x < y then (-1, examined + 1)
    else if y < x then (1, examined + 1)
    else compareElements (examined + 1) xs ys
  | _, _ => (0, examined)

/-- A comparison sees nothing of the elements but their order. -/
theorem compareElements_map {p : α → Prop} {f : α → β}
    (h : ∀ x y, p x → p y → (f x < f y ↔ x < y)) {xs ys : List α} (hxs : ∀ x ∈ xs, p x)
    (hys : ∀ y ∈ ys, p y) (examined : Nat) :
    compareElements examined (xs.map f) (ys.map f) = compareElements examined xs ys := by
  induction xs generalizing ys examined with
  | nil => cases ys <;> rfl
  | cons x xs ih =>
    cases ys with
    | nil => rfl
    | cons y ys =>
      obtain ⟨hx, hxs⟩ := List.forall_mem_cons.mp hxs
      obtain ⟨hy, hys⟩ := List.forall_mem_cons.mp hys
      simp only [List.map_cons, compareElements, h x y hx hy, h y x hy hx, ih hxs hys]

/-- Comparing words is comparing the bytes of the elements, as they are stored. -/
theorem compareElements_words (hwidth : width ≤ 4) (examined : Nat) (xs ys : List UInt8) :
    compareElements examined (words width xs) (words width ys) =
      compareElements examined (chunks width xs) (chunks width ys) :=
  compareElements_map (p := fun group => group.length = width)
    (fun _ _ hx hy => BigEndian.assemble_lt_iff (hx.trans hy.symm) (hx ▸ hwidth))
    (fun _ => length_of_mem_chunks) (fun _ => length_of_mem_chunks) examined

/-- Compare `length` elements of two arrays of one kind. -/
def compared (s : Store) (left : ArrayRef) (leftOffset : Int16) (right : ArrayRef)
    (rightOffset length : Int16) : Except Fault (Int8 × Nat) := do
  let (x, y) ← operands s left right
  checkKinds x y
  let leftFrom ← natural .sourceOffset leftOffset
  let rightFrom ← natural .destinationOffset rightOffset
  let count ← natural .length length
  checkRange .source x leftFrom count
  checkRange .destination y rightFrom count
  let leftBytes ← s.read left (leftFrom * x.width) (count * x.width)
  let rightBytes ← s.read right (rightFrom * x.width) (count * x.width)
  pure (compareElements 0 (words x.width leftBytes) (words x.width rightBytes))

def compare (left : ArrayRef) (leftOffset : Int16) (right : ArrayRef) (rightOffset length : Int16) :
    Act Memory Int8 :=
  reported .compare (.query fun m => compared m.store left leftOffset right rightOffset length)

/-- The bytes of the value to look for: an element of the same kind, or as many bytes of a byte
array as such an element takes. -/
def needle (s : Store) (x y : Operand) (offset : Nat) : Except Fault (List UInt8) :=
  if y.kind = x.kind then do
    checkRange .value y offset 1
    s.read y.array (offset * x.width) x.width
  else if y.kind = .byte then do
    checkRange .value y offset x.width
    s.read y.array offset x.width
  else .error (.needleKind y.kind x.kind)

/-- Looking for a word is looking for the bytes of the element, as they are stored. -/
theorem findIdx?_words (hwidth : width ≤ 4) {target : List UInt8} (htarget : target.length = width)
    (bytes : List UInt8) :
    (words width bytes).findIdx? (· == BigEndian.assemble target) =
      (chunks width bytes).findIdx? (· == target) := by
  have hgroups : ∀ group ∈ chunks width bytes,
      (BigEndian.assemble group == BigEndian.assemble target) = (group == target) := by
    intro group hmem
    have hlength := length_of_mem_chunks hmem
    have hinj := BigEndian.assemble_inj (hlength.trans htarget.symm) (hlength ▸ hwidth)
    rw [Bool.eq_iff_iff, beq_iff_eq, beq_iff_eq, hinj]
  rw [words]
  generalize chunks width bytes = groups at hgroups
  induction groups with
  | nil => rfl
  | cons group groups ih =>
    obtain ⟨hgroup, hgroups⟩ := List.forall_mem_cons.mp hgroups
    rw [List.map_cons, List.findIdx?_cons, List.findIdx?_cons, hgroup, ih hgroups]

/-- Look for a value from `offset` to the end of an array. -/
def found (s : Store) (array : ArrayRef) (offset : Int16) (valueArray : ArrayRef)
    (valueOffset : Int16) : Except Fault (Int16 × Nat) := do
  let (x, y) ← operands s array valueArray
  let start ← natural .searchOffset offset
  let value ← natural .valueOffset valueOffset
  checkRange .search x start 0
  let target ← needle s x y value
  let remaining := x.length - start
  let bytes ← s.read array (start * x.width) (remaining * x.width)
  match (words x.width bytes).findIdx? (· == BigEndian.assemble target) with
  | some i => (shortIndex (start + i)).map fun found => (found, i + 1)
  | none => pure (-1, remaining)

/-- The least index from `offset` on that holds the value, or -1. -/
def find (array : ArrayRef) (offset : Int16) (valueArray : ArrayRef) (valueOffset : Int16) :
    Act Memory Int16 :=
  reported .find (.query fun m => found m.store array offset valueArray valueOffset)

end SmartCard.Range
