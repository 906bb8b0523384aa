import WorkflowLint.Position

/-!
# Tokens

A script is read as a sequence of tokens: names, numbers, two kinds of string literals and ten
punctuation marks. The end of the script is a token too, so that "the current token" always exists.

## Main definitions

* `WorkflowLint.Mark` — the ten punctuation marks.
* `WorkflowLint.TokenKind` — what a token is.
* `WorkflowLint.Token` — a kind, a text and a range.
-/

set_option autoImplicit false

namespace WorkflowLint

/-- A punctuation mark. -/
inductive Mark where
  | openBrace
  | closeBrace
  | openBracket
  | closeBracket
  | openParen
  | closeParen
  | equals
  | semicolon
  | comma
  | dot
  deriving DecidableEq, Repr, Inhabited

namespace Mark

/-- All marks. -/
def all : List Mark :=
  [openBrace, closeBrace, openBracket, closeBracket, openParen, closeParen, equals, semicolon,
    comma, dot]

/-- The character a mark is written with. -/
def char : Mark → Char
  | openBrace => '\x7b'
  | closeBrace => '\x7d'
  | openBracket => '['
  | closeBracket => ']'
  | openParen => '('
  | closeParen => ')'
  | equals => '='
  | semicolon => ';'
  | comma => ','
  | dot => '.'

/-- The mark written with `c`, if there is one. -/
def ofChar? (c : Char) : Option Mark :=
  all.find? fun m => m.char == c

/-- A mark is found again by its character. -/
@[simp] theorem ofChar?_char (m : Mark) : ofChar? m.char = some m := by
  cases m <;> decide

/-- A character stands for a mark exactly if the mark is written with it. -/
theorem ofChar?_eq_some_iff {c : Char} {m : Mark} : ofChar? c = some m ↔ m.char = c := by
  constructor
  · intro h
    simpa using List.find?_some h
  · rintro rfl
    exact ofChar?_char m

end Mark

/-- What a token is. -/
inductive TokenKind where
  /-- A name or a keyword. -/
  | identifier
  /-- A run of decimal digits. -/
  | number
  /-- A literal in double quotes. -/
  | string
  /-- A literal in triple double quotes. -/
  | blockString
  /-- A punctuation mark. -/
  | mark (m : Mark)
  /-- The end of the script. -/
  | eof
  deriving DecidableEq, Repr, Inhabited

namespace TokenKind

/-- All kinds. -/
def all : List TokenKind :=
  [identifier, number, string, blockString] ++ Mark.all.map mark ++ [eof]

/-- The name of a kind. A mark is named by its character. -/
def name : TokenKind → String
  | identifier => "identifier"
  | number => "number"
  | string => "string"
  | blockString => "blockString"
  | mark m => String.singleton m.char
  | eof => "eof"

/-- The kind with the given name, if there is one. -/
def ofName? (s : String) : Option TokenKind :=
  all.find? fun k => k.name == s

/-- The kinds of string literals. -/
def literals : List TokenKind := [string, blockString]

/-- The kinds a plain value may have. -/
def values : List TokenKind := [identifier, string, blockString, number]

/-- The kinds an engine name may have. -/
def engineNames : List TokenKind := [identifier, string]

end TokenKind

/-- A token: its kind, its text and the range it was read from. -/
structure Token where
  /-- What the token is. -/
  kind : TokenKind
  /-- The text of the token; for a string literal, the text between its quotes. -/
  text : String
  /-- Where the token stands, quotes included. -/
  range : Range
  deriving DecidableEq, Repr, Inhabited

namespace Token

/-- The token that marks the end of a script at `p`. -/
def eofAt (p : Position) : Token := ⟨.eof, "", ⟨p, p⟩⟩

/-- Is this token the identifier `word`? -/
def isWord (t : Token) (word : String) : Bool :=
  t.kind == .identifier && t.text == word

end Token

end WorkflowLint
