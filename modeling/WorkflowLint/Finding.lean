/-!
# Findings

What a script can be faulted for. A finding is a cause, not a text: its severity and its wording are
functions of the cause, so every message of the checker is written in this one module.

## Main definitions

* `WorkflowLint.Severity` — errors and warnings.
* `WorkflowLint.SymbolKind` — the four name spaces of top-level definitions.
* `WorkflowLint.Finding`, with `Finding.severity` and `Finding.message`.
-/

set_option autoImplicit false

namespace WorkflowLint

/-- How grave a finding is. -/
inductive Severity where
  | error
  | warning
  deriving DecidableEq, Repr, Inhabited

/-- The word for a severity. -/
def Severity.name : Severity → String
  | .error => "error"
  | .warning => "warning"

/-- The name spaces of top-level definitions. -/
inductive SymbolKind where
  | policy
  | rubric
  | cadence
  | artifact
  deriving DecidableEq, Repr, Inhabited

namespace SymbolKind

/-- All name spaces. -/
def all : List SymbolKind := [policy, rubric, cadence, artifact]

/-- The word for a name space. -/
def name : SymbolKind → String
  | policy => "policy"
  | rubric => "rubric"
  | cadence => "cadence"
  | artifact => "artifact"

/-- The name space with the given name, if there is one. -/
def ofName? (s : String) : Option SymbolKind :=
  all.find? fun k => k.name == s

end SymbolKind

/-- The places in a script where a name refers to an earlier definition. -/
inductive ReferenceSite where
  /-- The rubric of a cadence's `compare using`. -/
  | compareAction
  /-- An entry of an artifact's `using` list. -/
  | usingList
  /-- The artifact of an `extend` statement. -/
  | extendStatement
  /-- The right-hand side of an attachment key. -/
  | attachment (key : String)
  deriving DecidableEq, Repr, Inhabited

/-- How a message names a place of reference. -/
def ReferenceSite.phrase : ReferenceSite → String
  | compareAction => "in cadence compare action"
  | usingList => "in using list"
  | extendStatement => "in extend statement"
  | attachment key => "referenced by '" ++ key ++ "'"

/-- A cause for complaint about a script. -/
inductive Finding where
  /-- A character that starts no token. -/
  | unexpectedCharacter (c : Char)
  /-- A quoted literal that is still open at the end of its line. -/
  | multilineString
  /-- A quoted literal without its closing quote. -/
  | unterminatedString
  /-- A triple-quoted literal without its closing quotes. -/
  | unterminatedBlockString
  /-- The grammar asks for something else at this place. -/
  | expected (what : String)
  /-- A second `juliet` block. -/
  | duplicateJuliet
  /-- A key that a `juliet` block does not have. -/
  | unknownJulietKey (key : String)
  /-- A name that its name space holds already. -/
  | duplicateDefinition (kind : SymbolKind) (name : String)
  /-- A criterion that is worth nothing. -/
  | nonPositivePoints
  /-- A criterion whose meaning is blank. -/
  | emptyMeaning
  /-- A tiebreaker that is no criterion of its rubric. -/
  | unmatchedTiebreaker (label : String)
  /-- A key that every cadence needs. -/
  | missingCadenceKey (key : String)
  /-- A `keep best` of nothing. -/
  | nonPositiveKeep
  /-- A cadence that counts to zero. -/
  | nonPositiveCount (key : String)
  /-- A key that a cadence does not have. -/
  | unknownCadenceKey (key : String)
  /-- A source file that its list names already. -/
  | duplicateSourcePath (path : String)
  /-- An attachment key that its block sets already. -/
  | duplicateAttachment (key : String)
  /-- A key that an attachment block does not have. -/
  | unknownAttachmentKey (key : String)
  /-- A reference to a name that is not defined so far. -/
  | unresolved (kind : SymbolKind) (name : String) (site : ReferenceSite)
  /-- An `extend` of anything but a rubric. -/
  | unsupportedExtendTarget
  /-- A remark that is handed in from outside. -/
  | note (severity : Severity) (text : String)
  deriving DecidableEq, Repr, Inhabited

namespace Finding

/-- The severity of a finding. -/
def severity : Finding → Severity
  | duplicateJuliet | unknownJulietKey _ | duplicateDefinition _ _ | nonPositivePoints
  | emptyMeaning | unmatchedTiebreaker _ | missingCadenceKey _ | unknownCadenceKey _
  | duplicateSourcePath _ | duplicateAttachment _ | unknownAttachmentKey _ => .warning
  | note severity _ => severity
  | _ => .error

/-- The wording of a finding. -/
def message : Finding → String
  | unexpectedCharacter c => "Unexpected character '" ++ String.singleton c ++ "'."
  | multilineString => "String literals cannot span multiple lines; use triple quotes."
  | unterminatedString => "Unterminated string literal."
  | unterminatedBlockString => "Unterminated block string."
  | expected what => "Expected " ++ what ++ "."
  | duplicateJuliet => "Duplicate juliet block. Only one top-level juliet block is expected."
  | unknownJulietKey key => "Unknown juliet key '" ++ key ++ "'. Supported keys: engine."
  | duplicateDefinition kind name => "Duplicate " ++ kind.name ++ " '" ++ name ++ "'."
  | nonPositivePoints => "Criterion points should be a positive integer."
  | emptyMeaning => "Criterion meaning should not be empty."
  | unmatchedTiebreaker label =>
    "Tiebreaker '" ++ label ++ "' does not match any declared rubric criterion."
  | missingCadenceKey key => "Cadence is missing required key '" ++ key ++ "'."
  | nonPositiveKeep => "'keep best' value should be greater than 0."
  | nonPositiveCount key => "Cadence '" ++ key ++ "' should be greater than 0."
  | unknownCadenceKey key =>
    "Unknown cadence key '" ++ key ++ "'. Supported keys: engine, variants, sprints."
  | duplicateSourcePath path =>
    "Duplicate source file path '" ++ path ++ "' in julietArtifactSourceFiles list."
  | duplicateAttachment key => "Duplicate create attachment '" ++ key ++ "'."
  | unknownAttachmentKey key =>
    "Unknown create attachment key '" ++ key ++
      "'. Supported keys: preflight, failureTriage, cadence, rubric."
  | unresolved kind name site =>
    "Unknown " ++ kind.name ++ " '" ++ name ++ "' " ++ site.phrase ++ "."
  | unsupportedExtendTarget => "Only '<Artifact>.rubric' is currently supported by extend."
  | note _ text => text

end Finding

end WorkflowLint
