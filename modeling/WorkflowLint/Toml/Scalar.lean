import WorkflowLint.Toml.Value

/-!
# Reading strings, numbers and times

Each reader takes the characters that lie ahead. It gives what it has read and what is left, or
nothing if the text does not start with what it reads. Where several readings are possible the
longest one is taken; what cannot follow a value is for the caller to refuse.

## Main definitions

* `WorkflowLint.Toml.readBasic`, `WorkflowLint.Toml.readLiteral`, and the forms over several lines.
* `WorkflowLint.Toml.readNumber` — integers and numbers with a fraction.
* `WorkflowLint.Toml.readMoment` — dates and times.
-/

set_option autoImplicit false

namespace WorkflowLint.Toml

/-- The characters that lie ahead are read as an `α`, and the rest is left. -/
abbrev Reader (α : Type) := List Char → Option (α × List Char)

/-! ## Characters -/

/-- Blank space within a line. -/
def isBlank (c : Char) : Bool := c == ' ' || c == '\t'

/-- Control characters other than the tab. They must be escaped in strings, and have no place in
comments. -/
def isControl (c : Char) : Bool := (c.toNat < 0x20 && c != '\t') || c.toNat == 0x7F

/-- Hexadecimal digits, in either case. -/
def isHexDigit (c : Char) : Bool :=
  c.isDigit || ('a' ≤ c && c ≤ 'f') || ('A' ≤ c && c ≤ 'F')

/-- The value of a digit. -/
def digitValue (c : Char) : Nat :=
  if c.isDigit then c.toNat - '0'.toNat
  else if 'a' ≤ c then c.toNat - 'a'.toNat + 10
  else c.toNat - 'A'.toNat + 10

/-- The number that digits stand for in the given base. -/
def numeral (base : Nat) (ds : List Char) : Nat :=
  ds.foldl (fun n c => n * base + digitValue c) 0

/-! ## Strings -/

/-- The character with the code point that the hexadecimal digits stand for. -/
def scalarOf? (ds : List Char) : Option Char :=
  let n := numeral 16 ds
  if ds.all isHexDigit && (n < 0xD800 || (0xDFFF < n && n < 0x110000)) then some (Char.ofNat n)
  else none

/-- The character that a one-letter escape stands for. -/
def escaped? : Char → Option Char
  | 'b' => some '\x08'
  | 't' => some '\t'
  | 'n' => some '\n'
  | 'f' => some '\x0c'
  | 'r' => some '\r'
  | '"' => some '"'
  | '\\' => some '\\'
  | _ => none

/-- What a string reader is about to see. -/
inductive StringMode where
  /-- Text of the string. -/
  | text
  /-- Blank space between a backslash and the end of its line. -/
  | lineEnd
  /-- Blank space and line ends that a backslash at the end of a line swallows. -/
  | margin
  deriving DecidableEq, Repr

/-- The rest of a string in double quotes, behind the opening quotes. In a string over several lines
line feeds are text, a lone quote is text, and a backslash at the end of a line swallows all blank
space up to the next text. -/
def readBasicFrom (multiline : Bool) : StringMode → Reader (List Char)
  | _, [] => none
  | .lineEnd, c :: cs =>
    if isBlank c then readBasicFrom multiline .lineEnd cs
    else if c == '\n' then readBasicFrom multiline .margin cs
    else none
  | _, '"' :: cs =>
    if !multiline then some ([], cs)
    else
      match cs with
      | '"' :: '"' :: rest => some ([], rest)
      | _ => do
        let (text, rest) ← readBasicFrom multiline .text cs
        return ('"' :: text, rest)
  | _, '\\' :: 'u' :: a :: b :: c :: d :: cs => do
    let x ← scalarOf? [a, b, c, d]
    let (text, rest) ← readBasicFrom multiline .text cs
    return (x :: text, rest)
  | _, '\\' :: 'U' :: a :: b :: c :: d :: e :: f :: g :: h :: cs => do
    let x ← scalarOf? [a, b, c, d, e, f, g, h]
    let (text, rest) ← readBasicFrom multiline .text cs
    return (x :: text, rest)
  | _, '\\' :: c :: cs =>
    if multiline && isBlank c then readBasicFrom multiline .lineEnd cs
    else if multiline && c == '\n' then readBasicFrom multiline .margin cs
    else do
      let x ← escaped? c
      let (text, rest) ← readBasicFrom multiline .text cs
      return (x :: text, rest)
  | mode, c :: cs =>
    if mode = .margin ∧ (isBlank c || c == '\n') then readBasicFrom multiline .margin cs
    else if c == '\\' || (isControl c && !(multiline && c == '\n')) then none
    else do
      let (text, rest) ← readBasicFrom multiline .text cs
      return (c :: text, rest)

/-- A string in double quotes, behind the opening quote. -/
def readBasic : Reader String := fun cs => do
  let (text, rest) ← readBasicFrom false .text cs
  return (String.ofList text, rest)

/-- A string in single quotes, behind the opening quote. Nothing in it is special. -/
def readLiteral : Reader String := fun cs =>
  let text := cs.takeWhile (· != '\'')
  match cs.dropWhile (· != '\'') with
  | _ :: rest => if text.any isControl then none else some (String.ofList text, rest)
  | [] => none

/-- The rest of a string in triple single quotes, behind the opening quotes. -/
def readLiteralLines : Reader (List Char)
  | [] => none
  | '\'' :: '\'' :: '\'' :: rest => some ([], rest)
  | c :: cs =>
    if isControl c && c != '\n' then none
    else do
      let (text, rest) ← readLiteralLines cs
      return (c :: text, rest)

/-- A line feed right behind opening triple quotes is not part of the string. -/
def dropFirstNewline : List Char → List Char
  | '\n' :: cs => cs
  | cs => cs

/-- Up to two more quotes right behind closing triple quotes belong to the string. -/
def extraQuotes (quote : Char) (cs : List Char) : List Char :=
  (cs.take 2).takeWhile (· == quote)

/-- A string in triple quotes of the given kind, behind the opening quotes. -/
def readLines (quote : Char) : Reader String := fun cs => do
  let cs := dropFirstNewline cs
  let (text, rest) ←
    if quote == '"' then readBasicFrom true .text cs else readLiteralLines cs
  let extra := extraQuotes quote rest
  return (String.ofList (text ++ extra), rest.drop extra.length)

/-! ## Numbers -/

/-- Further digits, each possibly behind a single underscore. The underscores are left out. -/
def moreDigits (isDigit : Char → Bool) : List Char → List Char × List Char
  | [] => ([], [])
  | [c] => if isDigit c then ([c], []) else ([], [c])
  | c :: c' :: cs =>
    if isDigit c then
      let (ds, rest) := moreDigits isDigit (c' :: cs)
      (c :: ds, rest)
    else if c == '_' && isDigit c' then
      let (ds, rest) := moreDigits isDigit cs
      (c' :: ds, rest)
    else ([], c :: c' :: cs)

/-- One digit and all that follow. -/
def readDigits (isDigit : Char → Bool) : Reader (List Char)
  | [] => none
  | c :: cs =>
    if isDigit c then
      let (ds, rest) := moreDigits isDigit cs
      some (c :: ds, rest)
    else none

/-- An optional sign; is it a minus? -/
def readSign : List Char → Bool × List Char
  | '-' :: cs => (true, cs)
  | '+' :: cs => (false, cs)
  | cs => (false, cs)

/-- A whole number in the base that a letter behind a zero announces. -/
def readBased : Reader Int
  | '0' :: letter :: cs => do
    let (base, isDigit) ← match letter with
      | 'x' => some (16, isHexDigit)
      | 'o' => some (8, fun c => '0' ≤ c && c ≤ '7')
      | 'b' => some (2, fun c => c == '0' || c == '1')
      | _ => none
    let (ds, rest) ← readDigits isDigit cs
    return ((numeral base ds : Nat), rest)
  | _ => none

/-- The digits before the point: a zero on its own, or digits that start with another one. -/
def readWhole : Reader (List Char)
  | '0' :: cs => some (['0'], cs)
  | cs => readDigits Char.isDigit cs

/-- An optional point and the digits behind it. -/
def readFraction (cs : List Char) : List Char × List Char :=
  match cs with
  | '.' :: rest => (readDigits Char.isDigit rest).getD ([], cs)
  | _ => ([], cs)

/-- An optional exponent. -/
def readExponent (cs : List Char) : Option Int × List Char :=
  match cs with
  | c :: rest =>
    if c == 'e' || c == 'E' then
      let (negative, rest) := readSign rest
      match readDigits Char.isDigit rest with
      | some (ds, rest) =>
        let n : Int := (numeral 10 ds : Nat)
        (some (if negative then -n else n), rest)
      | none => (none, cs)
    else (none, cs)
  | [] => (none, cs)

/-- A decimal number: whole, unless it has a fraction or an exponent. -/
def readDecimal : Reader Value := fun cs => do
  let (negative, cs) := readSign cs
  let (whole, cs) ← readWhole cs
  let (fraction, cs) := readFraction cs
  let (exponent, cs) := readExponent cs
  if fraction.isEmpty && exponent.isNone then
    let n : Int := (numeral 10 whole : Nat)
    return (.integer (if negative then -n else n), cs)
  else
    let magnitude : Decimal :=
      ⟨numeral 10 (whole ++ fraction), exponent.getD 0 - (fraction.length : Int)⟩
    return (.real (.finite negative magnitude), cs)

/-- Infinity, or what is not a number, possibly with a sign. -/
def readSpecial : Reader Value := fun cs =>
  match readSign cs with
  | (negative, 'i' :: 'n' :: 'f' :: rest) => some (.real (.infinite negative), rest)
  | (_, 'n' :: 'a' :: 'n' :: rest) => some (.real .notANumber, rest)
  | _ => none

/-- A number of any kind. -/
def readNumber : Reader Value := fun cs =>
  ((readBased cs).map fun r => (Value.integer r.1, r.2)) <|> readDecimal cs <|> readSpecial cs

/-! ## Dates and times -/

/-- A number of exactly `count` digits between two bounds. -/
def readField (count low high : Nat) : Reader Nat := fun cs =>
  let ds := cs.take count
  let n := numeral 10 ds
  if ds.length = count ∧ ds.all Char.isDigit ∧ low ≤ n ∧ n ≤ high then some (n, cs.drop count)
  else none

/-- The given character. -/
def readMark (mark : Char) : Reader Unit
  | c :: cs => if c == mark then some ((), cs) else none
  | [] => none

/-- A date that exists. -/
def readDate : Reader Date := fun cs => do
  let (year, cs) ← readField 4 0 9999 cs
  let (_, cs) ← readMark '-' cs
  let (month, cs) ← readField 2 1 12 cs
  let (_, cs) ← readMark '-' cs
  let (day, cs) ← readField 2 1 31 cs
  let d : Date := ⟨year, month, day⟩
  if d.exists then some (d, cs) else none

/-- An optional point and a fraction of a second, in microseconds; digits beyond the sixth are
ignored. -/
def readMicroseconds (cs : List Char) : Nat × List Char :=
  match cs with
  | '.' :: rest =>
    let ds := rest.takeWhile Char.isDigit
    if ds.isEmpty then (0, cs)
    else (numeral 10 ((ds ++ List.replicate 6 '0').take 6), rest.drop ds.length)
  | _ => (0, cs)

/-- A time of the day. -/
def readTime : Reader Time := fun cs => do
  let (hour, cs) ← readField 2 0 23 cs
  let (_, cs) ← readMark ':' cs
  let (minute, cs) ← readField 2 0 59 cs
  let (_, cs) ← readMark ':' cs
  let (second, cs) ← readField 2 0 59 cs
  let (microsecond, cs) := readMicroseconds cs
  return (⟨hour, minute, second, microsecond⟩, cs)

/-- An optional offset from universal time, in minutes. -/
def readOffset (cs : List Char) : Option Int × List Char :=
  match cs with
  | 'Z' :: rest => (some 0, rest)
  | 'z' :: rest => (some 0, rest)
  | sign :: rest =>
    let read : Option (Int × List Char) := do
      let (hours, rest) ← readField 2 0 23 rest
      let (_, rest) ← readMark ':' rest
      let (minutes, rest) ← readField 2 0 59 rest
      return (((hours * 60 + minutes : Nat) : Int), rest)
    match sign, read with
    | '+', some (n, rest) => (some n, rest)
    | '-', some (n, rest) => (some (-n), rest)
    | _, _ => (none, cs)
  | [] => (none, cs)

/-- A date, a time, or both. Between the two stands a `T` or a blank. -/
def readMoment : Reader Value := fun cs =>
  match readDate cs with
  | some (date, rest) =>
    let time : Option (Time × List Char) := match rest with
      | mark :: rest => if mark == 'T' || mark == 't' || mark == ' ' then readTime rest else none
      | [] => none
    match time with
    | some (time, rest) =>
      let (offset, rest) := readOffset rest
      some (.dateTime date time offset, rest)
    | none => some (.date date, rest)
  | none => (readTime cs).map fun r => (Value.time r.1, r.2)

/-- A truth value. -/
def readBoolean : Reader Value
  | 't' :: 'r' :: 'u' :: 'e' :: rest => some (.boolean true, rest)
  | 'f' :: 'a' :: 'l' :: 's' :: 'e' :: rest => some (.boolean false, rest)
  | _ => none

end WorkflowLint.Toml
