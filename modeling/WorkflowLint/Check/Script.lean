import WorkflowLint.Check.Cadence
import WorkflowLint.Check.Create
import WorkflowLint.Check.Extend
import WorkflowLint.Check.Halt
import WorkflowLint.Check.Juliet
import WorkflowLint.Check.Policy
import WorkflowLint.Check.Rubric

/-!
# Whole scripts

A script is checked statement by statement, each chosen by its keyword. Tokens that introduce no
statement are reported once and left behind.

## Main definitions

* `WorkflowLint.Check.statement` — the check of one statement.
* `WorkflowLint.Check.script` — the check of everything ahead.
* `WorkflowLint.Check.Move`, `WorkflowLint.Check.Move.run` — a check that is driven step by step.
-/

set_option autoImplicit false

namespace WorkflowLint

namespace Check

/-- A statement of the given kind, behind its keyword. -/
def statement : StatementKind → Check Unit
  | .juliet => juliet
  | .policy => policy
  | .rubric => rubric
  | .cadence => cadence
  | .create => create
  | .extend => extend
  | .halt => halt

/-- One statement, or a stretch of tokens that introduces none. -/
def scriptItem : Check Unit := do
  match StatementKind.ofToken? (← get).current with
  | some kind =>
    discard advance
    statement kind
  | none =>
    reportCurrent (.expected
      "a top-level statement: juliet, policy, rubric, cadence, create, extend, or halt")
    recoverStatement

/-- All statements up to the end of the script. -/
def script : Check Unit :=
  iterate (fun _ => do
    if (← get).atEnd then
      return ((), false)
    scriptItem
    return ((), true)) ()

/-- The state in which the check of everything ahead ends. -/
def finish (s : Checker) : Checker := (script s).2

/-! ## Checks that are driven step by step -/

/-- What a check can be told to do. -/
inductive Move where
  | advance
  | accept (kind : TokenKind)
  | acceptWord (word : String)
  | expect (kinds : List TokenKind) (complaint : Finding)
  | expectWord (word : String) (complaint : Finding)
  | expectEngine
  | recoverStatement
  | recoverInBlock
  | statement (kind : StatementKind)
  | reportCurrent (finding : Finding)
  | reportPrevious (finding : Finding)
  | defineCurrent (kind : SymbolKind)
  | script
  deriving DecidableEq, Repr

/-- What a move answers. -/
inductive Answer where
  | nothing
  | flag (b : Bool)
  | token (t : Option Token)
  | diagnostics (ds : List Diagnostic)
  deriving DecidableEq, Repr, Inhabited

/-- Carry out a move. -/
def Move.run : Move → Check Answer
  | .advance => return .token (some (← Check.advance))
  | .accept kind => return .flag (← Check.accept kind)
  | .acceptWord word => return .flag (← Check.acceptWord word)
  | .expect kinds complaint => return .token (← Check.expect kinds complaint)
  | .expectWord word complaint => return .token (← Check.expectWord word complaint)
  | .expectEngine => return .token (← Check.expectEngine)
  | .recoverStatement => do Check.recoverStatement; return .nothing
  | .recoverInBlock => do Check.recoverInBlock; return .nothing
  | .statement kind => do Check.statement kind; return .nothing
  | .reportCurrent finding => do Check.reportCurrent finding; return .nothing
  | .reportPrevious finding => do Check.reportPrevious finding; return .nothing
  | .defineCurrent kind => do Check.define kind (← get).current; return .nothing
  | .script => do Check.script; return .diagnostics (← get).diagnostics

end Check

end WorkflowLint
