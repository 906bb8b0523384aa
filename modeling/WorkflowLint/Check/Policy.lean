import WorkflowLint.Check.Basic

/-!
# The `policy` statement

A named block of instruction text:

    policy FailureTriage = "Record the root cause, then retry once.";
-/

set_option autoImplicit false

namespace WorkflowLint.Check

/-- A `policy` statement, behind its keyword. Without a name the statement is left behind. -/
def policy : Check Unit := do
  let some name ← expectName "policy name" | recoverStatement
  define .policy name
  expectMark .equals "'=' after policy name"
  discard (expectLiteral "a string or triple-quoted block string for policy body")
  expectMark .semicolon "';' after policy declaration"

end WorkflowLint.Check
