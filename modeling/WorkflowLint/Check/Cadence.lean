import WorkflowLint.Check.Basic

/-!
# The `cadence` statement

How variants of an artifact are branched, scored and pruned:

    cadence ShipLoop {
      engine = codex;
      variants = 3;
      sprints = 2;
      compare using ShipRubric;
      keep best 2;
    }

The counts `variants` and `sprints` are required.
-/

set_option autoImplicit false

namespace WorkflowLint.Check

/-- The keys that every cadence has to set, in the order in which their absence is reported. -/
def countKeys : List String := ["variants", "sprints"]

/-- A `compare` action, behind its keyword. -/
def compareAction : Check Unit := do
  expectKeyword "using" "'using' after 'compare'"
  if let some name ← expectName "rubric name after 'compare using'" then
    resolve .rubric .compareAction name
  expectMark .semicolon "';' after compare statement"

/-- A `keep` action, behind its keyword. -/
def keepAction : Check Unit := do
  expectKeyword "best" "'best' after 'keep'"
  let limit ← expectNumber "integer keep limit after 'keep best'"
  requirePositive .nonPositiveKeep limit
  expectMark .semicolon "';' after keep statement"

/-- An assignment, before its key. Returns the count keys set so far, the latest first. -/
def cadenceAssignment (seen : List String) : Check (List String) := do
  let key ← advance
  discard advance
  if key.text == "engine" then
    discard expectEngine
    expectMark .semicolon "';' after cadence assignment"
    return seen
  else if countKeys.contains key.text then
    let value ← expectNumber ("an integer for cadence key '" ++ key.text ++ "'")
    requirePositive (.nonPositiveCount key.text) value
    expectMark .semicolon "';' after cadence assignment"
    return key.text :: seen
  else
    report (.unknownCadenceKey key.text) key
    discard (expectValue "a value after cadence assignment")
    expectMark .semicolon "';' after cadence assignment"
    return seen

/-- One item of a cadence. -/
def cadenceItem (seen : List String) : Check (List String) := do
  if ← acceptWord "compare" then
    compareAction
    return seen
  else if ← acceptWord "keep" then
    keepAction
    return seen
  else
    let s ← get
    if s.isAt [.identifier] && (s.peek 1).kind == .mark .equals then
      cadenceAssignment seen
    else
      reportCurrent (.expected "cadence assignment or action (compare/keep)")
      recoverInBlock
      return seen

/-- The items of a cadence. -/
def cadenceItems : List String → Check (List String) := untilClosed cadenceItem

/-- Report the required keys that a cadence does not set. -/
def requireCountKeys (name : Token) (seen : List String) : Check Unit :=
  countKeys.forM fun key =>
    unless seen.contains key do
      report (.missingCadenceKey key) name

/-- A `cadence` statement, behind its keyword. Without a name the statement is left behind. -/
def cadence : Check Unit := do
  let some name ← expectName "cadence name" | recoverStatement
  define .cadence name
  expectMark .openBrace "'\x7b' after cadence name"
  let seen ← cadenceItems []
  expectMark .closeBrace "'\x7d' to close cadence block"
  requireCountKeys name seen

end WorkflowLint.Check
