import WorkflowLint.Check.Basic
import WorkflowLint.Text.Blank

/-!
# The `rubric` statement

Weighted criteria and the order in which ties are broken:

    rubric ShipRubric {
      criterion "Correctness" points 5 means "Tests pass.";
      criterion "Clarity" points 2;
      tiebreakers ["Correctness", "Clarity"];
    }

Tiebreakers are compared with the criteria of their own rubric once the block is closed, so they may
come before the criteria they name.
-/

set_option autoImplicit false

namespace WorkflowLint.Check

/-- What the items of a rubric have declared so far. -/
structure RubricBody where
  /-- The labels of the criteria, the latest first. -/
  criteria : List String
  /-- The tiebreakers, in order. -/
  tiebreakers : List Token
  deriving DecidableEq, Repr, Inhabited

/-- The body with one more criterion, if its label could be read. -/
def RubricBody.enter (body : RubricBody) : Option Token → RubricBody
  | some label => { body with criteria := label.text :: body.criteria }
  | none => body

/-- A criterion, behind its keyword. -/
def criterion (body : RubricBody) : Check RubricBody := do
  let label ← expectLiteral "criterion name string"
  expectKeyword "points" "'points' after criterion label"
  let points ← expectNumber "integer points value"
  requirePositive .nonPositivePoints points
  if ← acceptWord "means" then
    if let some meaning ← expectLiteral "criterion meaning string after 'means'" then
      if Text.allBlank meaning.text then
        report .emptyMeaning meaning
  expectMark .semicolon "';' after criterion definition"
  return body.enter label

/-- One entry of a list of tiebreakers. -/
def tiebreaker (body : RubricBody) : Check RubricBody := do
  match ← expectLiteral "criterion name in tiebreakers list" with
  | some label => return { body with tiebreakers := body.tiebreakers ++ [label] }
  | none => return body

/-- A list of tiebreakers, behind its keyword. -/
def tiebreakers (body : RubricBody) : Check RubricBody := do
  expectMark .openBracket "'[' after tiebreakers"
  let body ← listed tiebreaker body
  expectMark .closeBracket "']' after tiebreakers list"
  expectMark .semicolon "';' after tiebreakers statement"
  return body

/-- One item of a rubric. -/
def rubricItem (body : RubricBody) : Check RubricBody := do
  if ← acceptWord "criterion" then
    criterion body
  else if ← acceptWord "tiebreakers" then
    tiebreakers body
  else
    reportCurrent (.expected "'criterion' or 'tiebreakers' inside rubric block")
    recoverInBlock
    return body

/-- The items of a rubric. -/
def rubricItems : RubricBody → Check RubricBody := untilClosed rubricItem

/-- Report the tiebreakers that are no criteria. -/
def matchTiebreakers (body : RubricBody) : Check Unit :=
  body.tiebreakers.forM fun label =>
    unless body.criteria.contains label.text do
      report (.unmatchedTiebreaker label.text) label

/-- A `rubric` statement, behind its keyword. Without a name the statement is left behind. -/
def rubric : Check Unit := do
  let some name ← expectName "rubric name" | recoverStatement
  define .rubric name
  expectMark .openBrace "'\x7b' after rubric name"
  let body ← rubricItems ⟨[], []⟩
  expectMark .closeBrace "'\x7d' to close rubric block"
  matchTiebreakers body

end WorkflowLint.Check
