import WorkflowLint.Command.Request
import WorkflowLint.FileSet
import WorkflowLint.Report
import WorkflowLint.Text.Quoted

/-!
# The `lint` command

A run takes its settings from the manifest, lets the options of the command line win over them,
collects the files, lints them and reports. It ends with 0 if nothing was found, with 1 if anything was,
and with 2 if it could not be carried out.

## Main definitions

* `WorkflowLint.Command.Outcome` — what a command leaves behind.
* `WorkflowLint.Command.manifestSettings`, `WorkflowLint.Command.override` — the settings of a run.
* `WorkflowLint.Command.runLint` — the command.
-/

set_option autoImplicit false

namespace WorkflowLint.Command

/-- What a command leaves behind. -/
inductive Outcome where
  /-- It has ended with an exit code and text on the two output streams. -/
  | exit (code : Nat) (out err : String)
  /-- It was broken off. -/
  | broken (b : Breakdown)
  deriving DecidableEq, Repr, Inhabited

/-- A line of the log. -/
def logLine (level source message : String) : String :=
  level ++ " " ++ source ++ ": " ++ message ++ "\n"

/-- The settings that the manifest gives, and the manifest if it was not named but found in the
working directory. -/
def manifestSettings (t : FileTree) (o : LintOptions) :
    Except Failure (Settings × Option Path) :=
  match o.manifest with
  | some file => do return (← Manifest.load t (.ofString file), none)
  | none => do
    match ← Manifest.find t t.workingPath with
    | some file => return (← Manifest.load t file, some file)
    | none => return (.default, none)

/-- The settings with the options of the command line in place. -/
def override (s : Settings) (o : LintOptions) : Except Failure Settings := do
  let globs :=
    if !o.globs.isEmpty then o.globs
    else if s.globs.isEmpty then FileSet.defaultPatterns
    else s.globs
  let root := (o.root.map Path.ofString).getD s.root
  match o.format with
  | none => return ⟨globs, root, s.format⟩
  | some name =>
    match OutputFormat.ofName? name with
    | some format => return ⟨globs, root, format⟩
    | none => throw (.problem ⟨.manifest, OutputFormat.unsupported (Text.quoted name), none⟩)

/-- The settings of a run, if it gets that far. -/
def settings? (t : FileTree) (o : LintOptions) : Option Settings := do
  let (s, _) ← (manifestSettings t o).toOption
  (override s o).toOption

/-- The places that a run with the given settings looks at: the root, and where patterns start. -/
def places (s : Settings) : List Path :=
  s.root :: s.globs.map fun g => (Glob.Pattern.ofString (FileSet.fullPattern s.root g)).start

/-- The log of the search for files. Nothing is searched below a root that is no directory. -/
def searchLog (t : FileTree) (s : Settings) : List String :=
  if t.isDirectory s.root then
    s.globs.map fun pattern =>
      logLine "DEBUG" "julietscript.core.fileset" <|
        "Pattern " ++ Text.quoted pattern ++ " matched " ++
          toString (FileSet.matched t s.root pattern).length ++ " path(s)"
  else []

/-- The log of one file. -/
def fileLog (text : String) : String :=
  logLine "DEBUG" "julietscript.core.lint" <|
    "Linted " ++ toString text.length ++ " chars: " ++
      toString (tokenize text).stream.length ++ " tokens, " ++
      toString (lint text).length ++ " diagnostics"

/-- The log of the files up to the first that cannot be read. -/
def filesLog (t : FileTree) : List Path → List String
  | [] => []
  | p :: ps =>
    match FileSet.readScript t p with
    | .ok text => fileLog text :: filesLog t ps
    | .error _ => []

/-- The log of a run, as far as it gets. -/
def runLog (t : FileTree) (o : LintOptions) : List String :=
  match manifestSettings t o with
  | .error _ => []
  | .ok (s, found) =>
    let manifest := found.toList.map fun file =>
      logLine "DEBUG" "julietscript.cli.project" ("Using manifest " ++ file.text)
    match override s o with
    | .error _ => manifest
    | .ok s =>
      match FileSet.collect t s.root s.globs with
      | .error _ => manifest ++ searchLog t s
      | .ok files =>
        manifest ++ searchLog t s ++
          [logLine "INFO" "julietscript.cli.project"
            ("Linting " ++ toString files.length ++ " file(s)")] ++
          filesLog t files

/-- The form of the report and the results of a run. -/
def results (t : FileTree) (o : LintOptions) :
    Except Failure (OutputFormat × List LintResult) := do
  let (s, _) ← manifestSettings t o
  let s ← override s o
  let files ← FileSet.collect t s.root s.globs
  return (s.format, ← (FileSet.lintFiles t files).mapError .problem)

/-- The `lint` command. -/
def runLint (t : FileTree) (o : LintOptions) : Outcome :=
  let log := if o.verbose then String.join (runLog t o) else ""
  match results t o with
  | .ok (format, rs) =>
    let code := if (LintSummary.ofResults rs).clean then 0 else 1
    .exit code (Report.render format rs) log
  | .error (.problem p) => .exit 2 "" (log ++ Report.line ("Error: " ++ p.text))
  | .error (.breakdown b) => .broken b

end WorkflowLint.Command
