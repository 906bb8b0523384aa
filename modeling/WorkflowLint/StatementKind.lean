import WorkflowLint.Token

/-!
# Kinds of statements

A script is a sequence of statements, each introduced by a keyword of its own. Keywords are not
reserved: the same words may be used as names inside statements.

## Main definitions

* `WorkflowLint.StatementKind`, with its keyword `StatementKind.word`.
* `WorkflowLint.StatementKind.ofToken?` — the kind that a token introduces.
-/

set_option autoImplicit false

namespace WorkflowLint

/-- The kinds of statements. -/
inductive StatementKind where
  | juliet
  | policy
  | rubric
  | cadence
  | create
  | extend
  | halt
  deriving DecidableEq, Repr, Inhabited

namespace StatementKind

/-- All kinds of statements. -/
def all : List StatementKind := [juliet, policy, rubric, cadence, create, extend, halt]

/-- The keyword that introduces a statement. -/
def word : StatementKind → String
  | juliet => "juliet"
  | policy => "policy"
  | rubric => "rubric"
  | cadence => "cadence"
  | create => "create"
  | extend => "extend"
  | halt => "halt"

/-- The kind of statement that a token introduces, if it is a keyword. -/
def ofToken? (t : Token) : Option StatementKind :=
  all.find? fun k => t.isWord k.word

end StatementKind

end WorkflowLint
