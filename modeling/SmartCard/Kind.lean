-- SUMMARY: Element kinds of a card array: codes, widths and what each kind may be used for.

/-!
# Element kinds

Every array on the card holds elements of one kind. A kind fixes how many bytes an element takes,
whether the range operations accept it, and whether an array of it may be transient.
-/

namespace SmartCard

/-- The type of the elements of an array. -/
inductive Kind where
  | boolean
  | byte
  | short
  | int
  | object
  deriving DecidableEq, Repr, Inhabited

/-- All kinds, by ascending code. -/
def Kind.all : List Kind := [.boolean, .byte, .short, .int, .object]

/-- The code under which applets name a kind. -/
def Kind.code : Kind → UInt8
  | .boolean => 1
  | .byte => 2
  | .short => 3
  | .int => 4
  | .object => 5

/-- The kind with a given code, if there is one. -/
def Kind.ofCode? (code : UInt8) : Option Kind :=
  Kind.all.find? (·.code == code)

/-- Bytes taken by one element. -/
def Kind.width : Kind → Nat
  | .boolean | .byte => 1
  | .short => 2
  | .int | .object => 4

/-- Everything but a reference to an object is a primitive. -/
def Kind.isPrimitive : Kind → Bool
  | .object => false
  | _ => true

/-- Kinds accepted by the range operations: those that hold numbers. -/
def Kind.isNumeric : Kind → Bool
  | .byte | .short | .int => true
  | .boolean | .object => false

/-- Kinds of which a transient array can be made. -/
def Kind.allowsTransient : Kind → Bool
  | .boolean | .byte | .short | .int | .object => true

/-- How many `narrow` elements make up one `wide` element; none if `narrow` is the wider one. -/
def Kind.ratio? (wide narrow : Kind) : Option Nat :=
  if wide.width < narrow.width then none else some (wide.width / narrow.width)

/-- The name of a kind in messages. -/
def Kind.name : Kind → String
  | .boolean => "Boolean"
  | .byte => "Byte"
  | .short => "Short"
  | .int => "Int"
  | .object => "Object"

instance : ToString Kind := ⟨Kind.name⟩

theorem Kind.width_pos (k : Kind) : 0 < k.width := by
  cases k <;> decide

theorem Kind.width_le_four (k : Kind) : k.width ≤ 4 := by
  cases k <;> decide

theorem Kind.ofCode?_code (k : Kind) : Kind.ofCode? k.code = some k := by
  cases k <;> decide

end SmartCard
