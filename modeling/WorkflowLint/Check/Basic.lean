import WorkflowLint.Checker
import WorkflowLint.StatementKind

/-!
# Checks and their building blocks

A check is a computation over a `Checker`. The building blocks are those of a recursive-descent
reader that never gives up: a missing token is reported against the token at hand, nothing is
passed, and the reading goes on.

Repetition is `Check.iterate`. It goes round only while tokens are passed, which makes it total;
every loop of the grammar passes at least one token per round, so the test never cuts a loop short.

## Main definitions

* `WorkflowLint.Check` — a computation over a `Checker`.
* `WorkflowLint.Check.expect`, `WorkflowLint.Check.expectWord` — pass a token or complain.
* `WorkflowLint.Check.recover` — leave a malformed stretch behind.
* `WorkflowLint.Check.iterate`, and on top of it `Check.untilClosed` and `Check.separated`.
* `WorkflowLint.Check.define`, `WorkflowLint.Check.resolve` — names and references.
-/

set_option autoImplicit false

namespace WorkflowLint

/-- A computation over the state of a check. -/
abbrev Check (α : Type) := StateM Checker α

namespace Check

/-! ## Passing tokens -/

/-- Pass the token at hand, unless it is the end, and return it. -/
def advance : Check Token := do
  let s ← get
  set s.skip
  return s.current

/-- Pass the token at hand if it is of the given kind, and say whether it was. -/
def accept (kind : TokenKind) : Check Bool := do
  let s ← get
  if s.isAt [kind] then
    set s.skip
    return true
  return false

/-- Pass the token at hand if it is the identifier `word`, and say whether it was. -/
def acceptWord (word : String) : Check Bool := do
  let s ← get
  if s.isAtWord word then
    set s.skip
    return true
  return false

/-! ## Complaining -/

/-- Report a finding about a token. -/
def report (finding : Finding) (t : Token) : Check Unit :=
  modify fun s => { s with reports := ⟨finding, t.range⟩ :: s.reports }

/-- Report a finding about the token at hand. -/
def reportCurrent (finding : Finding) : Check Unit := do
  report finding (← get).current

/-- Report a finding about the token passed last. -/
def reportPrevious (finding : Finding) : Check Unit := do
  report finding (← get).previous

/-- Pass a token of one of the given kinds and return it, or complain about the token at hand. -/
def expect (kinds : List TokenKind) (complaint : Finding) : Check (Option Token) := do
  if (← get).isAt kinds then
    return some (← advance)
  reportCurrent complaint
  return none

/-- Pass the identifier `word` and return it, or complain about the token at hand. -/
def expectWord (word : String) (complaint : Finding) : Check (Option Token) := do
  if (← get).isAtWord word then
    return some (← advance)
  reportCurrent complaint
  return none

/-- Expect an identifier. -/
def expectName (what : String) : Check (Option Token) :=
  expect [.identifier] (.expected what)

/-- Expect a punctuation mark. -/
def expectMark (m : Mark) (what : String) : Check Unit :=
  discard (expect [.mark m] (.expected what))

/-- Expect a keyword. -/
def expectKeyword (word : String) (what : String) : Check Unit :=
  discard (expectWord word (.expected what))

/-- Expect a number. -/
def expectNumber (what : String) : Check (Option Token) :=
  expect [.number] (.expected what)

/-- Expect a string literal of either kind. -/
def expectLiteral (what : String) : Check (Option Token) :=
  expect TokenKind.literals (.expected what)

/-- Expect a plain value. -/
def expectValue (what : String) : Check (Option Token) :=
  expect TokenKind.values (.expected what)

/-- Expect the name of an engine. -/
def expectEngine : Check (Option Token) :=
  expect TokenKind.engineNames (.expected "engine value as an identifier or quoted string")

/-! ## Recovery -/

/-- Pass all tokens up to the first that `stop` accepts, and that one too if it is a semicolon. -/
def recover (stop : Token → Bool) : Check Unit := do
  modify fun s => s.skipWhile fun t => !stop t
  discard (accept (.mark .semicolon))

/-- Is the token a semicolon or a closing brace? -/
def endsItem (t : Token) : Bool :=
  t.kind == .mark .semicolon || t.kind == .mark .closeBrace

/-- Leave a malformed item of a block behind: go behind the next semicolon, or up to the closing
brace if that comes first. -/
def recoverInBlock : Check Unit := recover endsItem

/-- Is the token a semicolon or the keyword of a statement? -/
def endsStatement (t : Token) : Bool :=
  t.kind == .mark .semicolon || (StatementKind.ofToken? t).isSome

/-- Leave a malformed statement behind: go behind the next semicolon, or up to the next keyword of a
statement if that comes first. -/
def recoverStatement : Check Unit := recover endsStatement

/-! ## Repetition -/

/-- Repeat a step that says whether to go on. A round that passes no token is the last one. -/
def iterate {α : Type} (step : α → Check (α × Bool)) (a : α) (s : Checker) : α × Checker :=
  let r := step a s
  if r.1.2 ∧ r.2.ahead.length < s.ahead.length then iterate step r.1.1 r.2 else (r.1.1, r.2)
termination_by s.ahead.length
decreasing_by
  rename_i h
  exact h.2

/-- Repeat an item up to the closing brace of the block, or up to the end of the script. -/
def untilClosed {α : Type} (item : α → Check α) : α → Check α :=
  iterate fun a => do
    let s ← get
    if s.isAt [.mark .closeBrace] || s.atEnd then
      return (a, false)
    return (← item a, true)

/-- Repeat an item as long as a comma follows. -/
def separated {α : Type} (item : α → Check α) : α → Check α :=
  iterate fun a => do
    let a ← item a
    return (a, ← accept (.mark .comma))

/-- A bracketed list that may be empty: items separated by commas, up to the closing bracket. -/
def listed {α : Type} (item : α → Check α) (a : α) : Check α := do
  if (← get).isAt [.mark .closeBracket] then
    return a
  separated item a

/-! ## Names -/

/-- Enter a name into its space. A name that is there already is kept, and its repetition is
reported. -/
def define (kind : SymbolKind) (name : Token) : Check Unit := do
  if (← get).isDefined kind name.text then
    report (.duplicateDefinition kind name.text) name
  else
    modify fun s => { s with definitions := ⟨kind, name⟩ :: s.definitions }

/-- Report a reference to a name that is not defined so far. -/
def resolve (kind : SymbolKind) (site : ReferenceSite) (reference : Token) : Check Unit := do
  unless (← get).isDefined kind reference.text do
    report (.unresolved kind reference.text site) reference

/-- Does a numeral stand for a number above zero? A numeral is zero if it has no digit but `0`. -/
def isPositive (numeral : String) : Bool := numeral.toList.any (· != '0')

/-- Report a number that is not above zero. -/
def requirePositive (complaint : Finding) (number : Option Token) : Check Unit := do
  if let some n := number then
    unless isPositive n.text do
      report complaint n

end Check

end WorkflowLint
