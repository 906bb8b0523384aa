import Mathlib.Logic.Basic
import WorkflowLint.Token

/-!
# The grammar of scripts

Abstract scripts and the token lists that spell them. The leaves of an abstract script are tokens,
because a diagnostic is about the token it stands on; marks and keywords carry no meaning and
appear in the spelling only. The one exception is the keyword of a `juliet` block, which a
repeated block is reported on.

Keywords are not reserved: they are identifiers with a certain text, and the same text may be a name
elsewhere.

## Main definitions

* `WorkflowLint.Grammar.Leaf`, `WorkflowLint.Grammar.Word` — tokens of given kinds, and keywords.
* `WorkflowLint.Grammar.Statement`, `WorkflowLint.Grammar.Script` — abstract scripts.
* `WorkflowLint.Grammar.Statement.Spells`, `WorkflowLint.Grammar.Script.Spells` — which token lists
  spell them.
-/

set_option autoImplicit false

namespace WorkflowLint.Grammar

/-! ## Leaves -/

/-- A token of one of the given kinds. -/
structure Leaf (kinds : List TokenKind) where
  /-- The token. -/
  token : Token
  /-- Its kind is one of those given. -/
  kind_mem : token.kind ∈ kinds

/-- An identifier. -/
abbrev Name := Leaf [.identifier]

/-- A number. -/
abbrev Numeral := Leaf [.number]

/-- A literal in double quotes. -/
abbrev Quoted := Leaf [.string]

/-- A literal of either kind. -/
abbrev Literal := Leaf TokenKind.literals

/-- A punctuation mark. -/
abbrev Punct (m : Mark) := Leaf [.mark m]

/-- The identifier `word`. -/
structure Word (word : String) where
  /-- The token. -/
  token : Token
  /-- It is an identifier with this text. -/
  isWord : token.isWord word = true

/-! ## Abstract scripts -/

/-- A key and its value. Which kinds the value may have depends on the key. -/
structure Assignment (kinds : String → List TokenKind) where
  /-- The key. -/
  key : Name
  /-- The value. -/
  value : Leaf (kinds key.token.text)

/-- The kinds of a value in a `juliet` block. -/
def julietValue (key : String) : List TokenKind :=
  if key = "engine" then TokenKind.engineNames else TokenKind.values

/-- The kinds of a value in a cadence. -/
def cadenceValue (key : String) : List TokenKind :=
  if key = "engine" then TokenKind.engineNames
  else if key = "variants" ∨ key = "sprints" then [.number]
  else TokenKind.values

/-- The kinds of a value in an attachment block. -/
def attachmentValue (_key : String) : List TokenKind := [.identifier]

/-- An item of a rubric. -/
inductive RubricItem where
  /-- A criterion: its label, what it is worth, and what it means. -/
  | criterion (label : Literal) (points : Numeral) (meaning : Option Literal)
  /-- The labels that break ties, in order. -/
  | tiebreakers (labels : List Literal)

/-- An item of a cadence. -/
inductive CadenceItem where
  /-- `compare using` a rubric. -/
  | compare (rubric : Name)
  /-- `keep best` so many. -/
  | keep (limit : Numeral)
  /-- An assignment. Its key is not one of the words that introduce an action. -/
  | assign (assignment : Assignment cadenceValue)
      (key_ne : assignment.key.token.text ≠ "compare" ∧ assignment.key.token.text ≠ "keep")

/-- What an artifact is made from. -/
inductive Origin where
  /-- A prompt. -/
  | prompt (text : Literal)
  /-- Source files, of which there is one at least. -/
  | files (first : Quoted) (more : List Quoted)

/-- A statement. -/
inductive Statement where
  | juliet (keyword : Word "juliet") (settings : List (Assignment julietValue))
  | policy (name : Name) (body : Literal)
  | rubric (name : Name) (items : List RubricItem)
  | cadence (name : Name) (items : List CadenceItem)
  | create (name : Name) (origin : Origin) (uses : List Name)
      (attachments : List (Assignment attachmentValue))
  | extend (artifact target : Name) (text : Literal)
  | halt (message : Option Literal)

/-- A script is a list of statements. -/
abbrev Script := List Statement

/-! ## Spelling -/

/-- `Sequence spells as ts`: the token list `ts` spells the items `as` one after the other. -/
inductive Sequence {α : Type} (spells : α → List Token → Prop) : List α → List Token → Prop
  | nil : Sequence spells [] []
  | cons {a : α} {as : List α} {ts us : List Token} :
      spells a ts → Sequence spells as us → Sequence spells (a :: as) (ts ++ us)

/-- `Commas as ts`: the token list `ts` is the leaves `as`, one at least, with commas in between. -/
inductive Commas {kinds : List TokenKind} : List (Leaf kinds) → List Token → Prop
  | last (a : Leaf kinds) : Commas [a] [a.token]
  | cons {as : List (Leaf kinds)} {ts : List Token} (a : Leaf kinds) (comma : Punct .comma) :
      Commas as ts → Commas (a :: as) (a.token :: comma.token :: ts)

/-- `Bracketed as ts`: the token list `ts` is the leaves `as` with commas in between, in
brackets. -/
inductive Bracketed {kinds : List TokenKind} : List (Leaf kinds) → List Token → Prop
  | empty (opening : Punct .openBracket) (closing : Punct .closeBracket) :
      Bracketed [] [opening.token, closing.token]
  | filled {as : List (Leaf kinds)} {ts : List Token} (opening : Punct .openBracket)
      (closing : Punct .closeBracket) :
      Commas as ts → Bracketed as (opening.token :: ts ++ [closing.token])

/-- The spelling `key = value;` of an assignment. -/
inductive Assignment.Spells {kinds : String → List TokenKind} :
    Assignment kinds → List Token → Prop
  | mk (a : Assignment kinds) (equals : Punct .equals) (semicolon : Punct .semicolon) :
      Spells a [a.key.token, equals.token, a.value.token, semicolon.token]

/-- The spelling of a rubric's item. -/
inductive RubricItem.Spells : RubricItem → List Token → Prop
  | criterion (keyword : Word "criterion") (label : Literal) (worth : Word "points")
      (points : Numeral) (semicolon : Punct .semicolon) :
      Spells (.criterion label points none)
        [keyword.token, label.token, worth.token, points.token, semicolon.token]
  | criterionMeans (keyword : Word "criterion") (label : Literal) (worth : Word "points")
      (points : Numeral) (means : Word "means") (meaning : Literal)
      (semicolon : Punct .semicolon) :
      Spells (.criterion label points (some meaning))
        [keyword.token, label.token, worth.token, points.token, means.token, meaning.token,
          semicolon.token]
  | tiebreakers {labels : List Literal} {ts : List Token} (keyword : Word "tiebreakers")
      (semicolon : Punct .semicolon) :
      Bracketed labels ts → Spells (.tiebreakers labels) (keyword.token :: ts ++ [semicolon.token])

/-- The spelling of a cadence's item. -/
inductive CadenceItem.Spells : CadenceItem → List Token → Prop
  | compare (keyword : Word "compare") (joint : Word "using") (rubric : Name)
      (semicolon : Punct .semicolon) :
      Spells (.compare rubric) [keyword.token, joint.token, rubric.token, semicolon.token]
  | keep (keyword : Word "keep") (best : Word "best") (limit : Numeral)
      (semicolon : Punct .semicolon) :
      Spells (.keep limit) [keyword.token, best.token, limit.token, semicolon.token]
  | assign {a : Assignment cadenceValue} {ts : List Token}
      (key_ne : a.key.token.text ≠ "compare" ∧ a.key.token.text ≠ "keep") :
      a.Spells ts → Spells (.assign a key_ne) ts

/-- The spelling of what stands behind `from`. -/
inductive Origin.Spells : Origin → List Token → Prop
  | prompt (keyword : Word "juliet") (text : Literal) :
      Spells (.prompt text) [keyword.token, text.token]
  | files {first : Quoted} {more : List Quoted} {ts : List Token}
      (keyword : Word "julietArtifactSourceFiles") (opening : Punct .openBracket)
      (closing : Punct .closeBracket) :
      Commas (first :: more) ts →
        Spells (.files first more) (keyword.token :: opening.token :: ts ++ [closing.token])

/-- The spelling of the artifacts that an artifact uses. An artifact that uses none may say so. -/
inductive UsesSpelled : List Name → List Token → Prop
  | absent : UsesSpelled [] []
  | given {names : List Name} {ts : List Token} (keyword : Word "using") :
      Bracketed names ts → UsesSpelled names (keyword.token :: ts)

/-- The spelling of the attachments of an artifact. An artifact without any may say so. -/
inductive AttachmentsSpelled : List (Assignment attachmentValue) → List Token → Prop
  | absent : AttachmentsSpelled [] []
  | given {as : List (Assignment attachmentValue)} {ts : List Token} (keyword : Word "with")
      (opening : Punct .openBrace) (closing : Punct .closeBrace) :
      Sequence Assignment.Spells as ts →
        AttachmentsSpelled as (keyword.token :: opening.token :: ts ++ [closing.token])

/-- The spelling of a statement. -/
inductive Statement.Spells : Statement → List Token → Prop
  | juliet {settings : List (Assignment julietValue)} {ts : List Token} (keyword : Word "juliet")
      (opening : Punct .openBrace) (closing : Punct .closeBrace) :
      Sequence Assignment.Spells settings ts →
        Spells (.juliet keyword settings) (keyword.token :: opening.token :: ts ++ [closing.token])
  | policy (keyword : Word "policy") (name : Name) (equals : Punct .equals) (body : Literal)
      (semicolon : Punct .semicolon) :
      Spells (.policy name body)
        [keyword.token, name.token, equals.token, body.token, semicolon.token]
  | rubric {items : List RubricItem} {ts : List Token} (keyword : Word "rubric") (name : Name)
      (opening : Punct .openBrace) (closing : Punct .closeBrace) :
      Sequence RubricItem.Spells items ts →
        Spells (.rubric name items)
          (keyword.token :: name.token :: opening.token :: ts ++ [closing.token])
  | cadence {items : List CadenceItem} {ts : List Token} (keyword : Word "cadence") (name : Name)
      (opening : Punct .openBrace) (closing : Punct .closeBrace) :
      Sequence CadenceItem.Spells items ts →
        Spells (.cadence name items)
          (keyword.token :: name.token :: opening.token :: ts ++ [closing.token])
  | create {origin : Origin} {uses : List Name} {attachments : List (Assignment attachmentValue)}
      {os us ws : List Token} (keyword : Word "create") (name : Name) (source : Word "from")
      (semicolon : Punct .semicolon) :
      origin.Spells os → UsesSpelled uses us → AttachmentsSpelled attachments ws →
        Spells (.create name origin uses attachments)
          (keyword.token :: name.token :: source.token :: os ++ us ++ ws ++ [semicolon.token])
  | extend (keyword : Word "extend") (artifact : Name) (dot : Punct .dot) (target : Name)
      (joint : Word "with") (text : Literal) (semicolon : Punct .semicolon) :
      Spells (.extend artifact target text)
        [keyword.token, artifact.token, dot.token, target.token, joint.token, text.token,
          semicolon.token]
  | halt (keyword : Word "halt") (semicolon : Punct .semicolon) :
      Spells (.halt none) [keyword.token, semicolon.token]
  | haltMessage (keyword : Word "halt") (message : Literal) (semicolon : Punct .semicolon) :
      Spells (.halt (some message)) [keyword.token, message.token, semicolon.token]

/-- The spelling of a script: its statements, one after the other. -/
def Script.Spells (script : Script) (ts : List Token) : Prop :=
  Sequence Statement.Spells script ts

end WorkflowLint.Grammar
