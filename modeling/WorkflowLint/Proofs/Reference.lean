import WorkflowLint.Diagnostic
import WorkflowLint.Proofs.Grammar
import WorkflowLint.Text.Blank

/-!
# The diagnostics of an abstract script

A second account of what is wrong with a script. It reads abstract statements, not tokens: there is
no cursor, nothing is expected and nothing is skipped. What it needs to know about the statements
before is a `Scope`, four tables of names and a flag.

## Design

Each statement has two functions of the scope in front of it: its diagnostics, in the order in which
they are made, and the scope behind it. `gather` goes through a list from left to right with a
running state; it is used for scripts, whose state is the scope, and for lists in which an item is
compared with the items before it.

## Main definitions

* `WorkflowLint.Grammar.Scope` — the names that are known at a place of a script.
* `WorkflowLint.Grammar.decimal?`, `WorkflowLint.Grammar.strip` — numerals and blank text.
* `WorkflowLint.Grammar.Statement.diagnostics`, `WorkflowLint.Grammar.Statement.scope` — the two
  functions of a statement.
* `WorkflowLint.Grammar.Script.diagnostics`, `WorkflowLint.Grammar.Script.scope` — those of a
  script.
-/

set_option autoImplicit false

namespace WorkflowLint.Grammar

/-! ## From left to right -/

/-- What `say` says about the items of a list, from left to right. The state that it is told starts
as `b` and is changed by `step` behind each item. -/
def gather {α β γ : Type} (step : β → α → β) (say : β → α → List γ) : β → List α → List γ
  | _, [] => []
  | b, a :: as => say b a ++ gather step say (step b a) as

/-- What `say` says about each item, when it is told the items before. -/
def gatherAfter {α γ : Type} (say : List α → α → List γ) (as : List α) : List γ :=
  gather (fun earlier a => earlier ++ [a]) say [] as

/-- The diagnostic that `finding` is about `t`, if `c` holds. -/
def complain (c : Prop) [Decidable c] (finding : Finding) (t : Token) : List Diagnostic :=
  if c then [⟨finding, t.range⟩] else []

/-! ## Names -/

/-- What is known at a place of a script: the names defined before it, and whether there was a
`juliet` block. -/
structure Scope where
  /-- The tokens that define the names of a kind, in order. -/
  names : SymbolKind → List Token
  /-- Has a `juliet` block been met? -/
  julietSeen : Bool

namespace Scope

/-- Nothing is known at the start of a script. -/
def empty : Scope := ⟨fun _ => [], false⟩

/-- Is `name` in the table of its kind? -/
def Defines (Γ : Scope) (kind : SymbolKind) (name : String) : Prop :=
  ∃ t ∈ Γ.names kind, t.text = name

instance (Γ : Scope) (kind : SymbolKind) (name : String) : Decidable (Γ.Defines kind name) :=
  inferInstanceAs (Decidable (∃ t ∈ Γ.names kind, t.text = name))

/-- Enter a name into the table of its kind, unless it is there already. -/
def define (Γ : Scope) (kind : SymbolKind) (name : Name) : Scope :=
  if Γ.Defines kind name.token.text then Γ
  else { Γ with names := fun k => if k = kind then Γ.names k ++ [name.token] else Γ.names k }

/-- A name that is in the table of its kind already. -/
def repetition (Γ : Scope) (kind : SymbolKind) (name : Name) : List Diagnostic :=
  complain (Γ.Defines kind name.token.text) (.duplicateDefinition kind name.token.text) name.token

/-- A reference to a name that is not in the table of its kind. -/
def dangling (Γ : Scope) (kind : SymbolKind) (site : ReferenceSite) (name : Name) :
    List Diagnostic :=
  complain (¬ Γ.Defines kind name.token.text) (.unresolved kind name.token.text site) name.token

end Scope

/-! ## Numerals and blank text -/

/-- The number that a numeral stands for. A text with anything but decimal digits is no numeral. -/
def decimal? (numeral : String) : Option Nat :=
  if numeral.toList.all Char.isDigit then
    some (numeral.toList.foldl (fun n c => 10 * n + (c.toNat - '0'.toNat)) 0)
  else none

/-- A text without the blank characters at its two ends. -/
def strip (s : String) : List Char :=
  ((s.toList.dropWhile Text.isBlank).reverse.dropWhile Text.isBlank).reverse

/-! ## Items -/

/-- The diagnostics of an assignment in a `juliet` block. -/
def Assignment.julietDiagnostics (a : Assignment julietValue) : List Diagnostic :=
  complain (a.key.token.text ≠ "engine") (.unknownJulietKey a.key.token.text) a.key.token

/-- The diagnostics of a rubric's item in itself. -/
def RubricItem.diagnostics : RubricItem → List Diagnostic
  | .criterion _ points meaning =>
    complain (decimal? points.token.text = some 0) .nonPositivePoints points.token ++
      meaning.toList.flatMap fun m => complain (strip m.token.text = []) .emptyMeaning m.token
  | .tiebreakers _ => []

/-- The criteria that a rubric's item declares. -/
def RubricItem.criteria : RubricItem → List String
  | .criterion label _ _ => [label.token.text]
  | .tiebreakers _ => []

/-- The tiebreakers that a rubric's item lists. -/
def RubricItem.labels : RubricItem → List Literal
  | .criterion _ _ _ => []
  | .tiebreakers labels => labels

/-- The keys that a cadence's item sets. -/
def CadenceItem.keys : CadenceItem → List String
  | .assign a _ => [a.key.token.text]
  | _ => []

/-- The diagnostics of a cadence's item. -/
def CadenceItem.diagnostics (Γ : Scope) : CadenceItem → List Diagnostic
  | .compare rubric => Γ.dangling .rubric .compareAction rubric
  | .keep limit => complain (decimal? limit.token.text = some 0) .nonPositiveKeep limit.token
  | .assign a _ =>
    if a.key.token.text = "engine" then []
    else if a.key.token.text = "variants" ∨ a.key.token.text = "sprints" then
      complain (decimal? a.value.token.text = some 0) (.nonPositiveCount a.key.token.text)
        a.value.token
    else [⟨.unknownCadenceKey a.key.token.text, a.key.token.range⟩]

/-- The diagnostics of a source file, behind those listed before it. -/
def sourceDiagnostics (earlier : List Quoted) (path : Quoted) : List Diagnostic :=
  complain (path.token.text ∈ earlier.map fun p => p.token.text)
    (.duplicateSourcePath path.token.text) path.token

/-- The diagnostics of what an artifact is made from. -/
def Origin.diagnostics : Origin → List Diagnostic
  | .prompt _ => []
  | .files first more => gatherAfter sourceDiagnostics (first :: more)

/-- The attachment keys there are, with the kinds of the names they refer to. -/
def attachmentKeys : List (String × SymbolKind) :=
  [("preflight", .policy), ("failureTriage", .policy), ("cadence", .cadence), ("rubric", .rubric)]

/-- The diagnostics of the reference that an attachment makes. A key that does not exist refers to
nothing. -/
def referenceDiagnostics (Γ : Scope) (a : Assignment attachmentValue) : List Diagnostic :=
  match attachmentKeys.lookup a.key.token.text with
  | none => [⟨.unknownAttachmentKey a.key.token.text, a.key.token.range⟩]
  | some kind => Γ.dangling kind (.attachment a.key.token.text) a.value

/-- The diagnostics of an attachment, behind those set before it. -/
def attachmentDiagnostics (Γ : Scope) (earlier : List (Assignment attachmentValue))
    (a : Assignment attachmentValue) : List Diagnostic :=
  complain (a.key.token.text ∈ earlier.map fun e => e.key.token.text)
      (.duplicateAttachment a.key.token.text) a.key.token ++
    referenceDiagnostics Γ a

/-! ## Statements and scripts -/

/-- The scope behind a statement. -/
def Statement.scope (Γ : Scope) : Statement → Scope
  | .juliet _ _ => { Γ with julietSeen := true }
  | .policy name _ => Γ.define .policy name
  | .rubric name _ => Γ.define .rubric name
  | .cadence name _ => Γ.define .cadence name
  | .create name _ _ _ => Γ.define .artifact name
  | .extend _ _ _ => Γ
  | .halt _ => Γ

/-- The diagnostics of a statement. The names of policies, rubrics and cadences are entered in front
of their bodies, those of artifacts behind the whole statement. -/
def Statement.diagnostics (Γ : Scope) : Statement → List Diagnostic
  | .juliet keyword settings =>
    complain (Γ.julietSeen = true) .duplicateJuliet keyword.token ++
      settings.flatMap Assignment.julietDiagnostics
  | .policy name _ => Γ.repetition .policy name
  | .rubric name items =>
    Γ.repetition .rubric name ++ items.flatMap RubricItem.diagnostics ++
      (items.flatMap RubricItem.labels).flatMap fun label =>
        complain (label.token.text ∉ items.flatMap RubricItem.criteria)
          (.unmatchedTiebreaker label.token.text) label.token
  | .cadence name items =>
    Γ.repetition .cadence name ++
      items.flatMap (CadenceItem.diagnostics (Γ.define .cadence name)) ++
      ["variants", "sprints"].flatMap fun key =>
        complain (key ∉ items.flatMap CadenceItem.keys) (.missingCadenceKey key) name.token
  | .create name origin uses attachments =>
    origin.diagnostics ++ uses.flatMap (Γ.dangling .artifact .usingList) ++
      gatherAfter (attachmentDiagnostics Γ) attachments ++ Γ.repetition .artifact name
  | .extend artifact target _ =>
    Γ.dangling .artifact .extendStatement artifact ++
      complain (target.token.text ≠ "rubric") .unsupportedExtendTarget target.token
  | .halt _ => []

/-- The scope behind a script. -/
def Script.scope (Γ : Scope) (script : Script) : Scope := script.foldl Statement.scope Γ

/-- The diagnostics of a script, in the order in which they are made. -/
def Script.diagnostics (Γ : Scope) (script : Script) : List Diagnostic :=
  gather Statement.scope Statement.diagnostics Γ script

end WorkflowLint.Grammar
