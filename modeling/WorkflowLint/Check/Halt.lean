import WorkflowLint.Check.Basic

/-!
# The `halt` statement

The end of a workflow, with an optional message:

    halt "Stop after the first accepted PatchSet.";
-/

set_option autoImplicit false

namespace WorkflowLint.Check

/-- A `halt` statement, behind its keyword. -/
def halt : Check Unit := do
  unless (← get).isAt [.mark .semicolon] do
    discard (expectLiteral "optional halt message string before ';'")
  expectMark .semicolon "';' after halt statement"

end WorkflowLint.Check
