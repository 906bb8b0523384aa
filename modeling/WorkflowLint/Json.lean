import WorkflowLint.Text.Quoted

/-!
# JSON

Values of the JSON data format and their texts. Texts are laid out with one item per line, two blanks
deeper at each level, and hold ASCII characters only.

## Main definitions

* `WorkflowLint.Json` — a value.
* `WorkflowLint.Json.render` — the text of a value.
-/

set_option autoImplicit false

namespace WorkflowLint

/-- A JSON value. -/
inductive Json where
  | null
  | truth (b : Bool)
  /-- A whole number. -/
  | number (n : Int)
  /-- The number `digits · 10 ^ exponent`. -/
  | decimal (digits exponent : Int)
  | text (s : String)
  | list (items : List Json)
  /-- A record and its fields, in order. -/
  | record (fields : List (String × Json))
  deriving Inhabited

namespace Json

/-- The escape of a UTF-16 code unit. -/
def unitEscape (n : Nat) : List Char := ['\\', 'u'] ++ Text.hexDigits 4 n

/-- How a character is written between quotes. Printable ASCII characters stand for themselves, except
for the quote and the backslash. All others are escaped, by a letter if there is one, and otherwise
by their UTF-16 code units. -/
def charText (c : Char) : List Char :=
  if c == '"' then ['\\', '"']
  else if c == '\\' then ['\\', '\\']
  else if c == '\n' then ['\\', 'n']
  else if c == '\r' then ['\\', 'r']
  else if c == '\t' then ['\\', 't']
  else if c == '\x0c' then ['\\', 'f']
  else if c == '\x08' then ['\\', 'b']
  else if ' ' ≤ c && c ≤ '~' then [c]
  else if c.toNat < 0x10000 then unitEscape c.toNat
  else
    let n := c.toNat - 0x10000
    unitEscape (0xD800 + n / 0x400) ++ unitEscape (0xDC00 + n % 0x400)

/-- A string between quotes. -/
def quotedText (s : String) : List Char := ['"'] ++ s.toList.flatMap charText ++ ['"']

/-- The end of a line, and the margin of the next one. -/
def newline (margin : Nat) : List Char := '\n' :: List.replicate margin ' '

mutual

/-- The text of a value whose last line has the given margin. -/
def renderAt (margin : Nat) : Json → List Char
  | .null => ['n', 'u', 'l', 'l']
  | .truth true => ['t', 'r', 'u', 'e']
  | .truth false => ['f', 'a', 'l', 's', 'e']
  | .number n => (toString n).toList
  | .decimal digits exponent => (toString digits).toList ++ ['e'] ++ (toString exponent).toList
  | .text s => quotedText s
  | .list [] => ['[', ']']
  | .list (item :: items) =>
    ['['] ++ newline (margin + 2) ++ renderAt (margin + 2) item ++
      renderItems (margin + 2) items ++ newline margin ++ [']']
  | .record [] => ['\x7b', '\x7d']
  | .record ((key, v) :: fields) =>
    ['\x7b'] ++ newline (margin + 2) ++ quotedText key ++ [':', ' '] ++ renderAt (margin + 2) v ++
      renderFields (margin + 2) fields ++ newline margin ++ ['\x7d']

/-- The text of further items, each behind a comma. -/
def renderItems (margin : Nat) : List Json → List Char
  | [] => []
  | item :: items => [','] ++ newline margin ++ renderAt margin item ++ renderItems margin items

/-- The text of further fields, each behind a comma. -/
def renderFields (margin : Nat) : List (String × Json) → List Char
  | [] => []
  | (key, v) :: fields =>
    [','] ++ newline margin ++ quotedText key ++ [':', ' '] ++ renderAt margin v ++
      renderFields margin fields

end

/-- The text of a value. -/
def render (v : Json) : String := String.ofList (renderAt 0 v)

end Json

end WorkflowLint
