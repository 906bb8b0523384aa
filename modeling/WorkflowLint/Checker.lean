import WorkflowLint.Lexeme

/-!
# The state of a check

A check walks over the tokens of a script once, from left to right. It reports what it finds and
collects the names it meets, so that a reference is resolved only against earlier definitions.

## Design

The tokens are held as a zipper: those already passed, the latest first, and those still ahead. The
end of the script stands apart, because it can be looked at but never passed. Everything that a
check collects is a list that only grows at its head; `Checker.reported` and `Checker.table` show
the reports and the definitions in the order in which they were made.

## Main definitions

* `WorkflowLint.Definition` — a name and the space it belongs to.
* `WorkflowLint.Checker` — the state, with its views `current`, `previous`, `reported` and `table`.
-/

set_option autoImplicit false

namespace WorkflowLint

/-- A top-level definition: a name space and the token that names the definition. -/
structure Definition where
  /-- The name space. -/
  kind : SymbolKind
  /-- The token whose text is the defined name. -/
  token : Token
  deriving DecidableEq, Repr, Inhabited

/-- The state of a check. -/
structure Checker where
  /-- The tokens already passed, the latest first. -/
  past : List Token
  /-- The tokens still ahead, without the end of the script. -/
  ahead : List Token
  /-- The end of the script. -/
  eof : Token
  /-- The diagnostics made so far, the latest first. -/
  reports : List Diagnostic
  /-- The definitions met so far, the latest first. -/
  definitions : List Definition
  /-- Has a `juliet` block been met? -/
  julietSeen : Bool
  deriving DecidableEq, Repr, Inhabited

namespace Checker

/-- A check before the first of `tokens`, with diagnostics that were made earlier. -/
def start (tokens : List Token) (eof : Token) (earlier : List Diagnostic) : Checker :=
  { past := [], ahead := tokens, eof := eof, reports := earlier.reverse, definitions := []
    julietSeen := false }

/-- A check of a script that has been read as tokens. -/
def ofTokenized (t : Tokenized) : Checker := start t.tokens t.eof t.diagnostics

/-! ## Looking around -/

/-- The number of tokens passed. -/
def index (s : Checker) : Nat := s.past.length

/-- The token at hand; at the end of the script, its end. -/
def current (s : Checker) : Token := s.ahead.headD s.eof

/-- The token `n` places behind the one at hand; past the last token, the end of the script. -/
def peek (s : Checker) (n : Nat) : Token := s.ahead.getD n s.eof

/-- All tokens, passed or not, and the end of the script. -/
def stream (s : Checker) : List Token := s.past.reverse ++ s.ahead ++ [s.eof]

/-- The token at a distance from the one at hand, which for a negative distance has been passed. Past
the last token there is the end of the script; places before the first token are counted back
from the end. -/
def lookFrom? (s : Checker) (distance : Int) : Option Token :=
  match (s.index : Int) + distance with
  | .ofNat n => some (s.stream.getD n s.eof)
  | .negSucc n => s.stream.reverse[n]?

/-- The token passed last; before the first move, the token at hand. -/
def previous (s : Checker) : Token := s.past.headD s.current

/-- Have all tokens been passed? -/
def atEnd (s : Checker) : Bool := s.ahead.isEmpty

/-- Is the token at hand of one of the given kinds? -/
def isAt (s : Checker) (kinds : List TokenKind) : Bool := kinds.contains s.current.kind

/-- Is the token at hand the identifier `word`? -/
def isAtWord (s : Checker) (word : String) : Bool := s.current.isWord word

/-! ## What has been collected -/

/-- The diagnostics in the order in which they were made. -/
def reported (s : Checker) : List Diagnostic := s.reports.reverse

/-- The diagnostics in reading order. -/
def diagnostics (s : Checker) : List Diagnostic := Diagnostic.sort s.reported

/-- The tokens that define names of one space, in the order in which they were met. -/
def table (s : Checker) (kind : SymbolKind) : List Token :=
  (s.definitions.reverse.filter fun d => d.kind == kind).map Definition.token

/-- Is `name` defined in the given space? -/
def isDefined (s : Checker) (kind : SymbolKind) (name : String) : Bool :=
  s.definitions.any fun d => d.kind == kind && d.token.text == name

/-! ## Moving -/

/-- Pass the token at hand, unless it is the end. -/
def skip (s : Checker) : Checker :=
  match s.ahead with
  | [] => s
  | t :: ts => { s with past := t :: s.past, ahead := ts }

/-- Pass all tokens up to the first that `p` rejects. -/
def skipWhile (s : Checker) (p : Token → Bool) : Checker :=
  { s with past := (s.ahead.takeWhile p).reverse ++ s.past, ahead := s.ahead.dropWhile p }

end Checker

end WorkflowLint
