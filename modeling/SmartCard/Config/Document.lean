-- SUMMARY: Reader of configuration documents: lines of key = value laid over the default configuration.
import SmartCard.Config

/-!
# Configuration documents

A document assigns values to some of the configuration keys, one assignment a line. Keys are bare or
quoted, values are integers or booleans, and blank lines and comments may stand anywhere.
`Document.assignments?` reads a text, and `Config.ofDocument` lays its assignments over the default
configuration and validates the result. Everything else that such a document could hold in other
settings (tables, lists, texts, fractions) has no place in a configuration and makes it unreadable.
-/

namespace SmartCard

/-- A value that a configuration key can take. -/
inductive Document.Value where
  | integer (n : Int)
  | boolean (b : Bool)
  deriving DecidableEq, Repr

/-- One line `key = value`. -/
structure Document.Assignment where
  key : String
  value : Document.Value
  deriving DecidableEq, Repr

namespace Document

/-! ## Characters -/

def isBlank (c : Char) : Bool := c == ' ' || c == '\t'

/-- Characters of comments and quoted keys: all but the control characters other than the tab. -/
def isText (c : Char) : Bool := c == '\t' || (' ' ≤ c && c.toNat != 0x7f)

/-- Characters of keys that need no quotes. -/
def isBare (c : Char) : Bool := c.isAlphanum || c == '_' || c == '-'

/-- The mark around literal keys. -/
def apostrophe : Char := Char.ofNat 0x27

/-- The value of a digit in a base of at most sixteen. -/
def digit? (base : Nat) (c : Char) : Option Nat :=
  let value? : Option Nat :=
    if '0' ≤ c && c ≤ '9' then some (c.toNat - '0'.toNat)
    else if 'a' ≤ c && c ≤ 'f' then some (c.toNat - 'a'.toNat + 10)
    else if 'A' ≤ c && c ≤ 'F' then some (c.toNat - 'A'.toNat + 10)
    else none
  value?.filter (· < base)

/-! ## Numbers -/

/-- The digits after `n`, each of them led by at most one underscore. -/
def moreDigits? (base : Nat) (n : Nat) : List Char → Option Nat
  | [] => some n
  | '_' :: c :: rest => (digit? base c).bind fun d => moreDigits? base (n * base + d) rest
  | c :: rest => (digit? base c).bind fun d => moreDigits? base (n * base + d) rest

/-- One or more digits, with single underscores between them. -/
def digits? (base : Nat) : List Char → Option Nat
  | [] => none
  | c :: rest => (digit? base c).bind fun d => moreDigits? base d rest

/-- A decimal number without superfluous zeros in front. -/
def decimal? : List Char → Option Nat
  | ['0'] => some 0
  | '0' :: _ => none
  | cs => digits? 10 cs

/-- An integer: decimal with an optional sign, or unsigned in base sixteen, eight or two. -/
def integer? : List Char → Option Int
  | '0' :: 'x' :: cs => (digits? 16 cs).map Int.ofNat
  | '0' :: 'o' :: cs => (digits? 8 cs).map Int.ofNat
  | '0' :: 'b' :: cs => (digits? 2 cs).map Int.ofNat
  | '+' :: cs => (decimal? cs).map Int.ofNat
  | '-' :: cs => (decimal? cs).map fun n => -Int.ofNat n
  | cs => (decimal? cs).map Int.ofNat

def Value.ofChars? (cs : List Char) : Option Value :=
  if cs = ['t', 'r', 'u', 'e'] then some (.boolean true)
  else if cs = ['f', 'a', 'l', 's', 'e'] then some (.boolean false)
  else (integer? cs).map .integer

/-! ## Keys -/

/-- The character with the code written in hexadecimal. -/
def charOfHex? (cs : List Char) : Option Char :=
  (cs.mapM (digit? 16)).bind fun ds =>
    let code := ds.foldl (fun n d => n * 16 + d) 0
    if code.isValidChar then some (Char.ofNat code) else none

/-- The character named by a one-letter escape. -/
def escaped? : Char → Option Char
  | 'b' => some (Char.ofNat 0x08)
  | 't' => some '\t'
  | 'n' => some '\n'
  | 'f' => some (Char.ofNat 0x0c)
  | 'r' => some '\r'
  | 'e' => some (Char.ofNat 0x1b)
  | '"' => some '"'
  | '\\' => some '\\'
  | _ => none

/-- Put a character in front of the key that follows it. -/
def consKey? (c? : Option Char) (more? : Option (List Char × List Char)) :
    Option (List Char × List Char) :=
  match c?, more? with
  | some c, some (key, rest) => some (c :: key, rest)
  | _, _ => none

/-- A key up to its closing quote, with its escapes resolved, and what follows the quote. -/
def quotedKey? : List Char → Option (List Char × List Char)
  | [] => none
  | '"' :: rest => some ([], rest)
  | '\\' :: 'x' :: a :: b :: rest => consKey? (charOfHex? [a, b]) (quotedKey? rest)
  | '\\' :: 'u' :: a :: b :: c :: d :: rest => consKey? (charOfHex? [a, b, c, d]) (quotedKey? rest)
  | '\\' :: 'U' :: a :: b :: c :: d :: e :: f :: g :: h :: rest =>
    consKey? (charOfHex? [a, b, c, d, e, f, g, h]) (quotedKey? rest)
  | '\\' :: c :: rest => consKey? (escaped? c) (quotedKey? rest)
  | c :: rest => consKey? (if isText c then some c else none) (quotedKey? rest)

/-- A key up to the closing apostrophe, taken as it stands, and what follows the apostrophe. -/
def literalKey? (cs : List Char) : Option (List Char × List Char) :=
  let key := cs.takeWhile (· != apostrophe)
  match cs.dropWhile (· != apostrophe) with
  | [] => none
  | _ :: rest => if key.all isText then some (key, rest) else none

/-- The key at the start of a line, and what follows it. -/
def key? : List Char → Option (List Char × List Char)
  | [] => none
  | '"' :: rest => quotedKey? rest
  | c :: rest =>
    if c = apostrophe then literalKey? rest
    else if isBare c then some (c :: rest.takeWhile isBare, rest.dropWhile isBare)
    else none

/-! ## Lines -/

/-- The end of a line after its content: blanks, and possibly a comment. -/
def isLineEnd (cs : List Char) : Bool :=
  match cs.dropWhile isBlank with
  | [] => true
  | c :: comment => c == '#' && comment.all isText

/-- The assignment on a line that has content. -/
def assignment? (cs : List Char) : Option Assignment :=
  match key? cs with
  | none => none
  | some (key, rest) =>
    match rest.dropWhile isBlank with
    | '=' :: rest =>
      let rest := rest.dropWhile isBlank
      let inValue := fun c => !isBlank c && c != '#'
      match Value.ofChars? (rest.takeWhile inValue) with
      | none => none
      | some value =>
        if isLineEnd (rest.dropWhile inValue) then some ⟨String.ofList key, value⟩ else none
    | _ => none

/-- The assignments of a line: one, or none on a line without content. -/
def line? (cs : List Char) : Option (List Assignment) :=
  if isLineEnd cs then some [] else (assignment? (cs.dropWhile isBlank)).map ([·])

/-- A text cut at its line ends, `\n` or `\r\n`. -/
def lines : List Char → List (List Char)
  | [] => [[]]
  | '\n' :: rest => [] :: lines rest
  | '\r' :: '\n' :: rest => [] :: lines rest
  | c :: rest =>
    match lines rest with
    | [] => [[c]]
    | line :: more => (c :: line) :: more

/-- The assignments of a text, in order. One byte order mark may lead it. -/
def assignments? (text : List Char) : Option (List Assignment) :=
  let body := match text with
    | '\uFEFF' :: rest => rest
    | _ => text
  ((lines body).mapM line?).map List.flatten

end Document

/-- An integer in the range of a capacity. -/
def Document.capacity? (n : Int) : Option UInt32 :=
  if 0 ≤ n ∧ n < UInt32.size then some (UInt32.ofNat n.toNat) else none

/-- Give one key its value. Unknown keys and values of the wrong type are refused. -/
def Config.assign? (c : Config) (a : Document.Assignment) : Option Config :=
  match a.key, a.value with
  | "commit_capacity", .integer n =>
    (Document.capacity? n).map fun v => { c with commitCapacity := v }
  | "commit_entry_overhead", .integer n =>
    (Document.capacity? n).map fun v => { c with commitEntryOverhead := v }
  | "persistent_capacity", .integer n =>
    (Document.capacity? n).map fun v => { c with persistentCapacity := v }
  | "transient_reset_capacity", .integer n =>
    (Document.capacity? n).map fun v => { c with transientResetCapacity := v }
  | "transient_deselect_capacity", .integer n =>
    (Document.capacity? n).map fun v => { c with transientDeselectCapacity := v }
  | "integrity_sensitive_supported", .boolean b => some { c with integritySensitiveSupported := b }
  | "debug", .boolean b => some { c with debug := b }
  | _, _ => none

/-- Lay assignments over a configuration. No key may be assigned twice. -/
def Config.overlay? (c : Config) (assignments : List Document.Assignment) : Option Config :=
  if (assignments.map (·.key)).Nodup then assignments.foldlM Config.assign? c else none

/-- The valid configuration that a document describes. -/
def Config.ofDocument (text : String) : Except Config.Error Config :=
  match (Document.assignments? text.toList).bind (Config.overlay? {}) with
  | none => .error .unreadable
  | some c => c.validate.map fun _ => c

end SmartCard
