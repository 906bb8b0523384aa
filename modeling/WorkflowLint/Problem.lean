import WorkflowLint.Path

/-!
# Problems of a run

What keeps a run from linting anything: a manifest that cannot be used, or files that cannot be
found or read. These are problems of the run and not findings about a script. A few things are not
expected; they are not reported, and end the run on the spot.

## Main definitions

* `WorkflowLint.Problem`, with `Problem.text`.
* `WorkflowLint.Subject` — the file, and possibly the key, that a problem is about.
* `WorkflowLint.Breakdown` — what is not expected.
* `WorkflowLint.Failure` — a problem or a breakdown.
-/

set_option autoImplicit false

namespace WorkflowLint

/-- The areas in which a run can fail. -/
inductive ProblemArea where
  /-- Anything else. -/
  | general
  /-- A manifest that cannot be used. -/
  | manifest
  /-- Files that cannot be found or read. -/
  | files
  deriving DecidableEq, Repr, Inhabited

/-- What a problem is about. -/
structure Subject where
  /-- The file. -/
  file : Path
  /-- The key of the manifest, if the problem is about one. -/
  key : Option String
  deriving DecidableEq, Repr, Inhabited

/-- How a message names its subject. An empty key is not shown. -/
def Subject.text (s : Subject) : String :=
  match s.key with
  | none => s.file.text
  | some key => if key.isEmpty then s.file.text else s.file.text ++ " [" ++ key ++ "]"

/-- A reason why a run stops. -/
structure Problem where
  /-- Where the run failed. -/
  area : ProblemArea
  /-- What went wrong. -/
  message : String
  /-- What the message is about, if it is about anything. -/
  subject : Option Subject
  deriving DecidableEq, Repr, Inhabited

/-- The message, behind its subject if there is one. -/
def Problem.text (p : Problem) : String :=
  match p.subject with
  | some s => s.text ++ ": " ++ p.message
  | none => p.message

/-- What ends a run on the spot. -/
inductive Breakdown where
  /-- The bytes of a manifest are no text. -/
  | undecodable
  /-- The character U+0000 stands where the system refuses it: in the path of a manifest, or in the
  path of a directory that a pattern asks for. -/
  | nullCharacter
  /-- A value cannot be shown in a message, because an integer in it has too many digits. -/
  | unshowable
  /-- A name is too long for telling what its path leads to. -/
  | untestable
  /-- Links go in a circle, or too deep, where they are replaced in the path of a file. -/
  | circular
  deriving DecidableEq, Repr, Inhabited

/-- Why a run has no results. -/
inductive Failure where
  /-- It is reported. -/
  | problem (p : Problem)
  /-- It is not expected. -/
  | breakdown (b : Breakdown)
  deriving DecidableEq, Repr, Inhabited

end WorkflowLint
