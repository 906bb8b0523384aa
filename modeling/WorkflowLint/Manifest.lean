import WorkflowLint.FileTree
import WorkflowLint.Problem
import WorkflowLint.Text.Newline
import WorkflowLint.Text.Utf8
import WorkflowLint.Toml.Display
import WorkflowLint.Toml.Reader

/-!
# Manifests

A manifest is a TOML document whose `lint` table holds the settings of a run. Whatever is wrong with
it is a problem of the run, but for three things that are not expected: bytes that are no text at
all, a path with the character U+0000, and a value that should be shown in a message and is too
long.

## Main definitions

* `WorkflowLint.Settings`, `WorkflowLint.OutputFormat` — the settings of a run.
* `WorkflowLint.Manifest.load` — the settings in a manifest.
* `WorkflowLint.Manifest.find` — the manifest of a directory.
-/

set_option autoImplicit false

namespace WorkflowLint

/-- The forms of a report. -/
inductive OutputFormat where
  | human
  | vscode
  | json
  deriving DecidableEq, Repr, Inhabited

namespace OutputFormat

/-- All forms of a report. -/
def all : List OutputFormat := [human, vscode, json]

/-- The name of a form. -/
def name : OutputFormat → String
  | human => "human"
  | vscode => "vscode"
  | json => "json"

/-- The form of the given name. -/
def ofName? (s : String) : Option OutputFormat := all.find? fun f => f.name == s

/-- What is said about a form that there is not. -/
def unsupported (shown : String) : String :=
  "unsupported format " ++ shown ++ "; expected one of " ++ ", ".intercalate (all.map name)

end OutputFormat

/-- The settings of a run. -/
structure Settings where
  /-- The patterns of the files to lint; none stands for the default ones. -/
  globs : List String
  /-- Where relative patterns start. -/
  root : Path
  /-- The form of the report. -/
  format : OutputFormat
  deriving DecidableEq, Repr, Inhabited

/-- The settings of a run without a manifest. -/
def Settings.default : Settings := ⟨[], ⟨.relative, []⟩, .human⟩

namespace Manifest

/-- The name of the manifest of a directory. -/
def fileName : String := "julietscript.toml"

/-- A problem with a manifest, or with one of its keys. -/
def problem (file : Path) (key : Option String) (message : String) : Failure :=
  .problem ⟨.manifest, message, some ⟨file, key⟩⟩

/-- The text of a manifest. -/
def readText (t : FileTree) (file : Path) : Except Failure String :=
  if file.hasNull then .error (.breakdown .nullCharacter)
  else
    match t.read file with
    | .error e => .error (problem file none ("cannot read manifest: " ++ e.message))
    | .ok bytes =>
      match Text.Utf8.decode? bytes with
      | some text => .ok (Text.unifyNewlines text)
      | none => .error (.breakdown .undecodable)

/-- The patterns among the entries of the `lint` table. -/
def globs (file : Path) (lint : List (String × Toml.Value)) : Except Failure (List String) :=
  match lint.lookup "globs" with
  | none => .ok []
  | some v =>
    match v.strings? with
    | some globs => .ok globs
    | none => .error (problem file (some "lint.globs") "expected a list of strings")

/-- The root among the entries of the `lint` table. A relative root starts at the directory of the
manifest. -/
def root (file : Path) (lint : List (String × Toml.Value)) : Except Failure Path :=
  match lint.lookup "root" with
  | none => .ok file.parent
  | some v =>
    match v.string? with
    | some root => .ok (file.parent.join (.ofString root))
    | none => .error (problem file (some "lint.root") "expected a string")

/-- The form of the report among the entries of the `lint` table. A value that names no form is
shown in the message. -/
def format (file : Path) (lint : List (String × Toml.Value)) : Except Failure OutputFormat :=
  match lint.lookup "format" with
  | none => .ok .human
  | some v =>
    match v.string? >>= OutputFormat.ofName? with
    | some format => .ok format
    | none =>
      if v.isShowable then
        .error (problem file (some "lint.format") (OutputFormat.unsupported v.display))
      else .error (.breakdown .unshowable)

/-- The settings that a manifest with the given text stands for. If the text is no TOML, the message
ends with the reason that the TOML reader gives; this part is left out here. -/
def settings (file : Path) (text : String) : Except Failure Settings := do
  let some document := Toml.parse? text
    | .error (problem file none "invalid TOML: ")
  let some lint := ((document.lookup "lint").getD (.table [])).table?
    | .error (problem file (some "lint") "expected a table")
  return ⟨← globs file lint, ← root file lint, ← format file lint⟩

/-- The settings in the manifest that a path leads to. -/
def load (t : FileTree) (file : Path) : Except Failure Settings := do
  settings file (← readText t file)

/-- The manifest of a directory, if it has one. -/
def find (t : FileTree) (directory : Path) : Except Failure (Option Path) :=
  let file := directory.join (.ofString fileName)
  if !t.canTest file then .error (.breakdown .untestable)
  else .ok (if t.isFile file then some file else none)

end Manifest

end WorkflowLint
