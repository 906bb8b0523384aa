import WorkflowLint.Check.Basic

/-!
# The `extend` statement

A criterion that is added to the rubric of an artifact:

    extend PatchSet.rubric with "Check migration safety.";
-/

set_option autoImplicit false

namespace WorkflowLint.Check

/-- An `extend` statement, behind its keyword. Without a name the statement is left behind. -/
def extend : Check Unit := do
  let some name ← expectName "artifact name after 'extend'" | recoverStatement
  resolve .artifact .extendStatement name
  expectMark .dot "'.' after artifact name in extend target"
  if let some target ← expectName "extend target after '.'" then
    unless target.text == "rubric" do
      report .unsupportedExtendTarget target
  expectKeyword "with" "'with' after extend target"
  discard (expectLiteral "string or block string after 'with'")
  expectMark .semicolon "';' after extend statement"

end WorkflowLint.Check
