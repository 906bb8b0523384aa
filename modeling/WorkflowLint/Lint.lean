import WorkflowLint.Check.Script

/-!
# Linting a script

`lint` is the whole engine: it reads a script as tokens, checks them in one pass and lists what it
found in reading order. There is no text it refuses.

## Main definitions

* `WorkflowLint.lint` — the diagnostics of a script.
* `WorkflowLint.LintResult` — the diagnostics of one file.
* `WorkflowLint.LintSummary` — the totals of a run.
-/

set_option autoImplicit false

namespace WorkflowLint

/-- The diagnostics of a script, in reading order. -/
def lint (script : String) : List Diagnostic :=
  (Check.finish (.ofTokenized (tokenize script))).diagnostics

/-- The diagnostics of one file. -/
structure LintResult where
  /-- The path of the file, as it is reported. -/
  path : String
  /-- Its diagnostics, in reading order. -/
  diagnostics : List Diagnostic
  deriving DecidableEq, Repr, Inhabited

namespace LintResult

/-- The number of diagnostics of one severity. -/
def count (r : LintResult) (severity : Severity) : Nat :=
  r.diagnostics.countP fun d => d.severity == severity

/-- The number of errors. -/
def errors (r : LintResult) : Nat := r.count .error

/-- The number of warnings. -/
def warnings (r : LintResult) : Nat := r.count .warning

end LintResult

/-- The totals of a run. -/
structure LintSummary where
  /-- The number of files. -/
  files : Int
  /-- The number of diagnostics. -/
  issues : Int
  /-- The number of errors. -/
  errors : Int
  /-- The number of warnings. -/
  warnings : Int
  deriving DecidableEq, Repr, Inhabited

namespace LintSummary

/-- The total of a count over a list of results. -/
def total (count : LintResult → Nat) (rs : List LintResult) : Nat :=
  rs.foldr (fun r n => count r + n) 0

/-- The totals of a list of results. -/
def ofResults (rs : List LintResult) : LintSummary :=
  { files := rs.length
    issues := total (fun r => r.diagnostics.length) rs
    errors := total LintResult.errors rs
    warnings := total LintResult.warnings rs }

/-- Has nothing been found? -/
def clean (s : LintSummary) : Bool := s.issues == 0

/-- The totals as a sentence. -/
def format (s : LintSummary) : String :=
  "Linted " ++ toString s.files ++ " file(s): " ++ toString s.issues ++ " issue(s) (" ++
    toString s.errors ++ " error(s), " ++ toString s.warnings ++ " warning(s))."

/-- The mark in front of the totals shows the worst that was found: an error, a warning or
nothing. -/
def mark (s : LintSummary) : Char :=
  if s.errors != 0 then '✗' else if s.warnings != 0 then '⚠' else '✓'

/-- The totals as a line for people. -/
def humanLine (s : LintSummary) : String := String.singleton s.mark ++ " " ++ s.format

end LintSummary

end WorkflowLint
