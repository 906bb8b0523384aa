import WorkflowLint.Finding
import WorkflowLint.Position

/-!
# Diagnostics

A diagnostic is a finding together with the range of the script it is about. Reports list the
diagnostics of a script in reading order; diagnostics that start at one place keep the order in
which they were made.

## Main definitions

* `WorkflowLint.Diagnostic`, with `Diagnostic.shown` and `Diagnostic.format`.
* `WorkflowLint.Diagnostic.sort` — the stable order by start.
-/

set_option autoImplicit false

namespace WorkflowLint

/-- A finding and the range it is about. -/
structure Diagnostic where
  /-- What is wrong. -/
  finding : Finding
  /-- Where it is wrong. -/
  range : Range
  deriving DecidableEq, Repr, Inhabited

namespace Diagnostic

/-- The severity of the finding. -/
def severity (d : Diagnostic) : Severity := d.finding.severity

/-- The wording of the finding. -/
def message (d : Diagnostic) : String := d.finding.message

/-- What a diagnostic shows: all but its cause. -/
def shown (d : Diagnostic) : Severity × String × Range := (d.severity, d.message, d.range)

/-- Is this an error, and not a mere warning? -/
def isError (d : Diagnostic) : Bool := d.severity == .error

/-- One report line, `path:line:character: severity: message` counted from one. Without a path the
line starts with the place itself. -/
def format (d : Diagnostic) (path : Option String) : String :=
  let place := d.range.start.humanText
  let location := match path with
    | some p => p ++ ":" ++ place
    | none => place
  location ++ ": " ++ d.severity.name ++ ": " ++ d.message

/-- Does `d` start no later than `e`? -/
def startsBy (d e : Diagnostic) : Bool := d.range.start.le e.range.start

/-- The diagnostics in reading order of their starts. The sort is stable: of two diagnostics that
start at the same place, the one that came first stays first. -/
def sort (ds : List Diagnostic) : List Diagnostic := ds.mergeSort startsBy

end Diagnostic

end WorkflowLint
