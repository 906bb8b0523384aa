import WorkflowLint.Json

/-!
# Reading JSON

The reader accepts the texts of the JSON grammar: any layout, numbers in every notation, and strings
with escapes, in which a character beyond the first plane is written by two code units. Code
units that do not make a character are refused.

## Main definitions

* `WorkflowLint.Json.readString?`, `WorkflowLint.Json.readNumber?` — the scalars.
* `WorkflowLint.Json.read?` — the value that a text stands for.
-/

set_option autoImplicit false

namespace WorkflowLint.Json

/-- Does `c` only separate the parts of a text? -/
def isSpace (c : Char) : Bool := c == ' ' || c == '\n' || c == '\r' || c == '\t'

/-- The text from its first part on. -/
def skipSpace (cs : List Char) : List Char := cs.dropWhile isSpace

/-! ## Strings -/

/-- What stands for a character, or for half of one, between quotes. -/
inductive Piece where
  /-- A character. -/
  | char (c : Char)
  /-- A UTF-16 code unit. -/
  | unit (n : Nat)
  deriving DecidableEq, Repr

/-- The value of a hexadecimal digit. -/
def hexValue? (c : Char) : Option Nat :=
  if '0' ≤ c && c ≤ '9' then some (c.toNat - '0'.toNat)
  else if 'a' ≤ c && c ≤ 'f' then some (c.toNat - 'a'.toNat + 10)
  else if 'A' ≤ c && c ≤ 'F' then some (c.toNat - 'A'.toNat + 10)
  else none

/-- The number with the given hexadecimal digits. -/
def hexNumber? (cs : List Char) : Option Nat :=
  cs.foldlM (fun n c => (hexValue? c).map fun d => n * 16 + d) 0

/-- The character behind a backslash, unless it announces a code unit. -/
def escaped? : Char → Option Char
  | '"' => some '"'
  | '\\' => some '\\'
  | '/' => some '/'
  | 'n' => some '\n'
  | 'r' => some '\r'
  | 't' => some '\t'
  | 'f' => some '\x0c'
  | 'b' => some '\x08'
  | _ => none

/-- Read up to the closing quote. `before` holds the pieces read so far, the latest first; the rest of
the text follows the pieces. -/
def readPieces? (before : List Piece) : List Char → Option (List Piece × List Char)
  | [] => none
  | '"' :: cs => some (before.reverse, cs)
  | '\\' :: 'u' :: a :: b :: c :: d :: cs =>
    match hexNumber? [a, b, c, d] with
    | some n => readPieces? (.unit n :: before) cs
    | none => none
  | '\\' :: c :: cs =>
    match escaped? c with
    | some e => readPieces? (.char e :: before) cs
    | none => none
  | c :: cs => if c < ' ' then none else readPieces? (.char c :: before) cs

/-- Is this the first half of a character beyond the first plane? -/
def isHigh (n : Nat) : Bool := 0xD800 ≤ n && n < 0xDC00

/-- Is this the second half of a character beyond the first plane? -/
def isLow (n : Nat) : Bool := 0xDC00 ≤ n && n < 0xE000

/-- Put the halves of characters together. A half on its own is refused. `before` holds the characters
put together so far, the latest first. -/
def assemble? (before : List Char) : List Piece → Option (List Char)
  | [] => some before.reverse
  | .char c :: pieces => assemble? (c :: before) pieces
  | .unit high :: .unit low :: pieces =>
    if isHigh high && isLow low then
      assemble? (Char.ofNat (0x10000 + (high - 0xD800) * 0x400 + (low - 0xDC00)) :: before) pieces
    else if isHigh high || isLow high then none
    else assemble? (Char.ofNat high :: before) (.unit low :: pieces)
  | .unit n :: pieces =>
    if isHigh n || isLow n then none else assemble? (Char.ofNat n :: before) pieces

/-- Read a string whose opening quote has been read. -/
def readString? (cs : List Char) : Option (String × List Char) := do
  let (pieces, rest) ← readPieces? [] cs
  return (String.ofList (← assemble? [] pieces), rest)

/-! ## Numbers -/

/-- The number with the given decimal digits. -/
def digitsValue (cs : List Char) : Nat := cs.foldl (fun n c => n * 10 + (c.toNat - '0'.toNat)) 0

/-- The number, given its sign and digits. -/
def signed (negative : Bool) (cs : List Char) : Int :=
  if negative then -(digitsValue cs : Int) else digitsValue cs

/-- Split a sign off. -/
def splitSign (plusAllowed : Bool) : List Char → Bool × List Char
  | '-' :: cs => (true, cs)
  | '+' :: cs => if plusAllowed then (false, cs) else (false, '+' :: cs)
  | cs => (false, cs)

/-- Split decimal digits off. -/
def splitDigits (cs : List Char) : List Char × List Char :=
  (cs.takeWhile Char.isDigit, cs.dropWhile Char.isDigit)

/-- Read the digits behind a decimal point, if there is one. -/
def readFraction? : List Char → Option (Option (List Char) × List Char)
  | '.' :: cs =>
    match splitDigits cs with
    | ([], _) => none
    | (ds, rest) => some (some ds, rest)
  | cs => some (none, cs)

/-- Read an exponent, if there is one. -/
def readExponent? : List Char → Option (Option Int × List Char)
  | c :: cs =>
    if c == 'e' || c == 'E' then
      let (negative, cs) := splitSign true cs
      match splitDigits cs with
      | ([], _) => none
      | (ds, rest) => some (some (signed negative ds), rest)
    else some (none, c :: cs)
  | [] => some (none, [])

/-- Read a number. The whole part has no needless zeros. -/
def readNumber? (cs : List Char) : Option (Json × List Char) := do
  let (negative, cs) := splitSign false cs
  let (whole, cs) := splitDigits cs
  if whole.isEmpty || (whole.length > 1 && whole.head? == some '0') then none
  else
    let (fraction, cs) ← readFraction? cs
    let (exponent, cs) ← readExponent? cs
    match fraction, exponent with
    | none, none => return (.number (signed negative whole), cs)
    | fraction, exponent =>
      let places := fraction.getD []
      return (.decimal (signed negative (whole ++ places)) (exponent.getD 0 - places.length), cs)

/-! ## Values -/

/-- Read the given word. -/
def readWord? (word : String) (v : Json) (cs : List Char) : Option (Json × List Char) :=
  if word.toList.isPrefixOf cs then some (v, cs.drop word.length) else none

mutual

/-- Read a value. The first argument bounds the number of values, items and fields that are begun
inside each other or one after the other. -/
def readValue? : Nat → List Char → Option (Json × List Char)
  | 0, _ => none
  | fuel + 1, cs =>
    match skipSpace cs with
    | '"' :: cs => (readString? cs).map fun (s, rest) => (.text s, rest)
    | '[' :: cs =>
      match skipSpace cs with
      | ']' :: cs => some (.list [], cs)
      | cs => (readItems? fuel cs).map fun (items, rest) => (.list items, rest)
    | '\x7b' :: cs =>
      match skipSpace cs with
      | '\x7d' :: cs => some (.record [], cs)
      | cs => (readFields? fuel cs).map fun (fields, rest) => (.record fields, rest)
    | 'n' :: cs => readWord? "null" .null ('n' :: cs)
    | 't' :: cs => readWord? "true" (.truth true) ('t' :: cs)
    | 'f' :: cs => readWord? "false" (.truth false) ('f' :: cs)
    | cs => readNumber? cs

/-- Read the items of a list up to its closing bracket. -/
def readItems? : Nat → List Char → Option (List Json × List Char)
  | 0, _ => none
  | fuel + 1, cs => do
    let (item, cs) ← readValue? fuel cs
    match skipSpace cs with
    | ',' :: cs =>
      let (items, cs) ← readItems? fuel cs
      return (item :: items, cs)
    | ']' :: cs => return ([item], cs)
    | _ => none

/-- Read the fields of a record up to its closing brace. -/
def readFields? : Nat → List Char → Option (List (String × Json) × List Char)
  | 0, _ => none
  | fuel + 1, cs =>
    match skipSpace cs with
    | '"' :: cs => do
      let (key, cs) ← readString? cs
      match skipSpace cs with
      | ':' :: cs =>
        let (v, cs) ← readValue? fuel cs
        match skipSpace cs with
        | ',' :: cs =>
          let (fields, cs) ← readFields? fuel cs
          return ((key, v) :: fields, cs)
        | '\x7d' :: cs => return ([(key, v)], cs)
        | _ => none
      | _ => none
    | _ => none

end

/-- The value that a text stands for, if it stands for one. Each character begins at most two values,
items or fields. -/
def read? (s : String) : Option Json := do
  let (v, rest) ← readValue? (2 * s.length + 2) s.toList
  if (skipSpace rest).isEmpty then some v else none

end WorkflowLint.Json
