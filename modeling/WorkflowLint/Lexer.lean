import WorkflowLint.Lexeme

/-!
# A lexer that is driven step by step

`tokenize` reads a whole script at once. A `Lexer` is the same reader as a value that can be stopped
and looked at between two moves: it holds what lies ahead, where it stands, and what it has
produced. Every move is possible in every state, also at the end of the script and also where the
text does not start with what the move reads.

## Main definitions

* `WorkflowLint.Lexer` — what lies ahead and what has been produced.
* `WorkflowLint.Lexer.consume` — move over lexemes and collect what they contribute.
* `WorkflowLint.Lexer.Move`, `WorkflowLint.Lexer.apply` — the moves.

## Main results

* `WorkflowLint.Lexer.tokens_finish_ofText` — finishing a fresh lexer gives the tokens of the script.
-/

set_option autoImplicit false

namespace WorkflowLint

/-- A reader in the middle of a script. -/
structure Lexer where
  /-- The characters that lie ahead. -/
  ahead : List Char
  /-- The number of characters already passed. -/
  offset : Nat
  /-- The place of the next character. -/
  position : Position
  /-- The tokens produced so far. -/
  tokens : List Token
  /-- The diagnostics produced so far. -/
  diagnostics : List Diagnostic
  deriving DecidableEq, Repr, Inhabited

namespace Lexer

/-- A lexer before the first character of a script. -/
def ofText (script : String) : Lexer := ⟨script.toList, 0, .origin, [], []⟩

/-! ## Looking around -/

/-- Is there nothing left to read? -/
def atEnd (lx : Lexer) : Bool := lx.ahead.isEmpty

/-- The next character, if there is one. -/
def current? (lx : Lexer) : Option Char := lx.ahead.head?

/-- The character `n` places behind the next one, if there is one. -/
def peek? (lx : Lexer) (n : Nat) : Option Char := lx.ahead[n]?

/-- Do three quotes come next? -/
def atTripleQuote (lx : Lexer) : Bool := Lexeme.startsTriple lx.ahead

/-! ## Moving -/

/-- Pass the next character, if there is one. -/
def advance (lx : Lexer) : Lexer :=
  match lx.ahead with
  | [] => lx
  | c :: cs =>
    { lx with ahead := cs, offset := lx.offset + 1, position := lx.position.advance c }

/-- Pass the lexemes `ls`, which lie ahead, and collect what they contribute. -/
def consume (lx : Lexer) (ls : List Lexeme) : Lexer :=
  let text := Lexeme.textOf ls
  { ahead := lx.ahead.drop text.length
    offset := lx.offset + text.length
    position := lx.position.after text
    tokens := lx.tokens ++ Lexeme.tokensOf lx.position ls
    diagnostics := lx.diagnostics ++ Lexeme.diagnosticsOf lx.position ls }

/-- Record an error from `start` up to the present place. -/
def error (lx : Lexer) (start : Position) (message : String) : Lexer :=
  { lx with diagnostics := lx.diagnostics ++ [⟨.note .error message, ⟨start, lx.position⟩⟩] }

/-- Record a token from `start` up to the present place. -/
def addToken (lx : Lexer) (kind : TokenKind) (text : String) (start : Position) : Lexer :=
  { lx with tokens := lx.tokens ++ [⟨kind, text, ⟨start, lx.position⟩⟩] }

/-- Read everything that lies ahead, and record the end. -/
def finish (lx : Lexer) : Lexer :=
  let done := lx.consume (Lexeme.decompose lx.ahead)
  { done with tokens := done.tokens ++ [.eofAt done.position] }

/-- Finishing a fresh lexer gives the tokens of the script, the end included. -/
theorem tokens_finish_ofText (script : String) :
    (ofText script).finish.tokens = (tokenize script).stream := by
  simp [finish, consume, ofText, tokenize, Tokenized.stream]

/-- Finishing a fresh lexer gives the lexical diagnostics of the script. -/
theorem diagnostics_finish_ofText (script : String) :
    (ofText script).finish.diagnostics = (tokenize script).diagnostics := by
  simp [finish, consume, ofText, tokenize]

/-- What a lexer can be told to do. -/
inductive Move where
  | advance
  | skipTrivia
  | readIdentifier
  | readNumber
  | readString
  | readBlockString
  | finish
  | error (start : Position) (message : String)
  | addToken (kind : TokenKind) (text : String) (start : Position)
  deriving DecidableEq, Repr

/-- Carry out a move. -/
def apply (lx : Lexer) : Move → Lexer
  | .advance => lx.advance
  | .skipTrivia => lx.consume [Lexeme.scanTrivia lx.ahead]
  | .readIdentifier => lx.consume [Lexeme.scanIdentifier lx.ahead]
  | .readNumber => lx.consume [Lexeme.scanNumber lx.ahead]
  | .readString => lx.consume [Lexeme.scanString lx.ahead]
  | .readBlockString => lx.consume [Lexeme.scanBlockString lx.ahead]
  | .finish => lx.finish
  | .error start message => lx.error start message
  | .addToken kind text start => lx.addToken kind text start

end Lexer

end WorkflowLint
