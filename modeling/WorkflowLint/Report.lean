import WorkflowLint.Json
import WorkflowLint.Lint
import WorkflowLint.Manifest
import WorkflowLint.Text.Ansi

/-!
# Reports

The results of a run as text, in one of three forms. For people and for editors there is a line per
diagnostic, followed by the totals; these lines are freed of terminal control sequences. For
programs there is a JSON document.

## Main definitions

* `WorkflowLint.Report.lines` — the diagnostics, line by line.
* `WorkflowLint.Report.json` — the results as a JSON value.
* `WorkflowLint.Report.render` — the whole report.
-/

set_option autoImplicit false

namespace WorkflowLint.Report

/-- A line of output that does not go to a terminal. -/
def line (s : String) : String := Text.stripAnsi s ++ "\n"

/-- The diagnostics of the results, line by line. -/
def lines (rs : List LintResult) : List String :=
  rs.flatMap fun r => r.diagnostics.map fun d => line (d.format (some r.path))

/-- A position as a JSON value. -/
def positionJson (p : Position) : Json :=
  .record [("line", .number p.line), ("character", .number p.character)]

/-- A range as a JSON value. -/
def rangeJson (r : Range) : Json :=
  .record [("start", positionJson r.start), ("end", positionJson r.stop)]

/-- A diagnostic as a JSON value. -/
def diagnosticJson (d : Diagnostic) : Json :=
  .record [("severity", .text d.severity.name), ("message", .text d.message),
    ("range", rangeJson d.range)]

/-- A result as a JSON value. -/
def resultJson (r : LintResult) : Json :=
  .record [("path", .text r.path), ("diagnostics", .list (r.diagnostics.map diagnosticJson))]

/-- The results as a JSON value. -/
def json (rs : List LintResult) : Json := .list (rs.map resultJson)

/-- The report on the results in the given form. -/
def render (format : OutputFormat) (rs : List LintResult) : String :=
  let summary := LintSummary.ofResults rs
  match format with
  | .json => (json rs).render ++ "\n"
  | .vscode => String.join (lines rs) ++ line summary.format
  | .human => String.join (lines rs) ++ summary.humanLine ++ "\n"

end WorkflowLint.Report
