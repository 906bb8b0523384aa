import WorkflowLint.Glob.Pattern
import WorkflowLint.Lint
import WorkflowLint.Problem
import WorkflowLint.Text.Newline
import WorkflowLint.Text.Utf8

/-!
# The files of a run

Patterns are expanded into the files that a run lints: each file once, by its absolute path without
links, in the order of path components. The patterns are expanded one after the other, and the first
thing that is not expected ends the run.

## Main definitions

* `WorkflowLint.FileSet.matched` — the paths that a pattern stands for.
* `WorkflowLint.FileSet.obstacle?` — what ends the run at a pattern.
* `WorkflowLint.FileSet.collect` — the files of a run.
* `WorkflowLint.FileSet.lintFiles` — the results for these files.
-/

set_option autoImplicit false

namespace WorkflowLint.FileSet

/-- The patterns that are used when none are given. -/
def defaultPatterns : List String := ["**/*.julietscript", "**/*.juliet", "**/*.jls"]

/-- The full text of a pattern. An absolute pattern is used as it is; any other is joined to the
root, whose own components are then read as parts of the pattern. -/
def fullPattern (root : Path) (pattern : String) : String :=
  let p := Path.ofString pattern
  if p.isAbsolute then pattern else (root.join p).text

/-- The paths that a pattern stands for, each as often as it is reached. -/
def matched (t : FileTree) (root : Path) (pattern : String) : List Path :=
  (Glob.Pattern.ofString (fullPattern root pattern)).expand t

/-- The paths that the patterns stand for, pattern by pattern. Components `.` do not count, so that
even a file may be followed by one. -/
def candidates (t : FileTree) (root : Path) (patterns : List String) : List Path :=
  patterns.flatMap fun pattern => (matched t root pattern).map Path.withoutDots

/-- What is in the way of collecting the file that a path may lead to. -/
def pathObstacle? (t : FileTree) (p : Path) : Option Breakdown :=
  if !t.canTest p then some .untestable
  else if t.isFile p && (t.canonical? p).isNone then some .circular
  else none

/-- What is in the way of collecting the files that a pattern stands for. -/
def obstacle? (t : FileTree) (root : Path) (pattern : String) : Option Breakdown :=
  if (Glob.Pattern.ofString (fullPattern root pattern)).isUnlistable then some .nullCharacter
  else ((matched t root pattern).map Path.withoutDots).findSome? (pathObstacle? t)

/-- The absolute paths, without links, of the files among the given paths. -/
def filesAmong (t : FileTree) (paths : List Path) : List Path :=
  (paths.filter t.isFile).filterMap t.canonical?

/-- The files that the patterns stand for, each once and in the order of path components. -/
def collect (t : FileTree) (root : Path) (patterns : List String) : Except Failure (List Path) :=
  if !t.canTest root then .error (.breakdown .untestable)
  else if !t.isDirectory root then
    .error (.problem ⟨.files, "root directory does not exist", some ⟨root, none⟩⟩)
  else
    match patterns.findSome? (obstacle? t root) with
    | some b => .error (.breakdown b)
    | none =>
      match (filesAmong t (candidates t root patterns)).eraseDups.mergeSort Path.le with
      | [] =>
        .error (.problem ⟨.files,
          "no files matched. Provided patterns: " ++ ", ".intercalate patterns, some ⟨root, none⟩⟩)
      | files => .ok files

/-- The text of the file that a path leads to. Ill-formed bytes are replaced, so that there is no
file that cannot be linted for what it holds. The path is one that has been collected, and does not
hold the character U+0000. -/
def readScript (t : FileTree) (p : Path) : Except Problem String :=
  match t.read p with
  | .ok bytes => .ok (Text.unifyNewlines (Text.Utf8.decodeLossy bytes))
  | .error e => .error ⟨.files, "failed to read file: " ++ e.message, some ⟨p, none⟩⟩

/-- The result for one file. -/
def lintFile (t : FileTree) (p : Path) : Except Problem LintResult := do
  return ⟨p.text, lint (← readScript t p)⟩

/-- The results for the given files, in order, or the problem with the first that cannot be read. -/
def lintFiles (t : FileTree) (ps : List Path) : Except Problem (List LintResult) :=
  ps.mapM (lintFile t)

end WorkflowLint.FileSet
