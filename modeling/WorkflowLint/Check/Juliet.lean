import WorkflowLint.Check.Basic

/-!
# The `juliet` block

The global defaults of a script:

    juliet { engine = codex; }

A script should have one such block at most, and its only key is `engine`.
-/

set_option autoImplicit false

namespace WorkflowLint.Check

/-- One assignment of a `juliet` block. The value of `engine` is a name or a quoted literal; unknown
keys are reported and may have any plain value. -/
def julietItem : Check Unit := do
  let some key ← expectName "a key name in juliet block" | recoverInBlock
  unless key.text == "engine" do
    report (.unknownJulietKey key.text) key
  expectMark .equals "'=' after juliet key"
  if key.text == "engine" then
    discard expectEngine
  else
    discard (expectValue "a value after '='")
  expectMark .semicolon "';' after juliet assignment"

/-- The assignments of a `juliet` block. -/
def julietItems : Check Unit := untilClosed (fun _ => julietItem) ()

/-- A `juliet` block, behind its keyword. A repeated block is reported on the keyword. -/
def juliet : Check Unit := do
  if (← get).julietSeen then
    reportPrevious .duplicateJuliet
  modify fun s => { s with julietSeen := true }
  expectMark .openBrace "'\x7b' after 'juliet'"
  julietItems
  expectMark .closeBrace "'\x7d' to close juliet block"

end WorkflowLint.Check
