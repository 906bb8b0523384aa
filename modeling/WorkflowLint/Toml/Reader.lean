import WorkflowLint.Toml.Document
import WorkflowLint.Toml.Scalar

/-!
# Reading TOML documents

A document is read line by line: headers open tables, and the other lines add keys to the table that
was opened last.

Values nest, so their readers take a bound on the number of steps. Each step uses up a character
or follows one that does, so twice the length of the text is never reached.

## Main definitions

* `WorkflowLint.Toml.readKey`, `WorkflowLint.Toml.readValue` — keys and values.
* `WorkflowLint.Toml.parse?` — the table that a document stands for.
-/

set_option autoImplicit false

namespace WorkflowLint.Toml

/-! ## Blank space and comments -/

/-- What is left behind blank space. -/
def skipBlank (cs : List Char) : List Char := cs.dropWhile isBlank

/-- What is left behind an optional comment. -/
def skipComment? : List Char → Option (List Char)
  | '#' :: cs =>
    if (cs.takeWhile (· != '\n')).any isControl then none else some (cs.dropWhile (· != '\n'))
  | cs => some cs

/-- What is left behind blank space, line ends and comments. `inComment` says whether a comment is
open. -/
def skipLoose? (inComment : Bool) : List Char → Option (List Char)
  | [] => some []
  | c :: cs =>
    if c == '\n' then skipLoose? false cs
    else if inComment then if isControl c then none else skipLoose? true cs
    else if isBlank c then skipLoose? false cs
    else if c == '#' then skipLoose? true cs
    else some (c :: cs)

/-! ## Keys -/

/-- The characters of a key without quotes. -/
def isBareKey (c : Char) : Bool := c.isAlphanum || c == '-' || c == '_'

/-- One part of a key. -/
def readKeyPart : Reader String
  | '"' :: cs => readBasic cs
  | '\'' :: cs => readLiteral cs
  | cs =>
    let part := cs.takeWhile isBareKey
    if part.isEmpty then none else some (String.ofList part, cs.drop part.length)

/-- The parts of a key, with points between them, in at most `steps` steps. -/
def readKeyParts : Nat → Reader (List String)
  | 0, _ => none
  | steps + 1, cs => do
    let (part, cs) ← readKeyPart cs
    match skipBlank cs with
    | '.' :: cs =>
      let (parts, cs) ← readKeyParts steps (skipBlank cs)
      return (part :: parts, cs)
    | cs => return ([part], cs)

/-- A key, and the blank space behind it. -/
def readKey : Reader (List String) := fun cs => readKeyParts cs.length cs

/-! ## Values -/

mutual

/-- A value, in at most `steps` steps. -/
def readValueIn : Nat → Reader Value
  | 0, _ => none
  | steps + 1, cs =>
    match cs with
    | '"' :: '"' :: '"' :: cs => (readLines '"' cs).map fun r => (.string r.1, r.2)
    | '"' :: cs => (readBasic cs).map fun r => (.string r.1, r.2)
    | '\'' :: '\'' :: '\'' :: cs => (readLines '\'' cs).map fun r => (.string r.1, r.2)
    | '\'' :: cs => (readLiteral cs).map fun r => (.string r.1, r.2)
    | '[' :: cs => do
      match ← skipLoose? false cs with
      | ']' :: cs => return (.array [], cs)
      | cs =>
        let (items, cs) ← readItems steps cs
        return (.array items, cs)
    | '\x7b' :: cs =>
      match skipBlank cs with
      | '\x7d' :: cs => some (.table [], cs)
      | cs => do
        let (entries, cs) ← readEntries steps [] cs
        return (.table (Entry.closeEntries entries), cs)
    | cs => readBoolean cs <|> readMoment cs <|> readNumber cs

/-- The items of an array, the closing bracket included. A comma may follow the last item. -/
def readItems : Nat → Reader (List Value)
  | 0, _ => none
  | steps + 1, cs => do
    let (v, cs) ← readValueIn steps cs
    match ← skipLoose? false cs with
    | ']' :: cs => return ([v], cs)
    | ',' :: cs =>
      match ← skipLoose? false cs with
      | ']' :: cs => return ([v], cs)
      | cs =>
        let (vs, cs) ← readItems steps cs
        return (v :: vs, cs)
    | _ => none

/-- The entries of a table that is written as a value, the closing brace included. -/
def readEntries : Nat → List (String × Entry) → Reader (List (String × Entry))
  | 0, _, _ => none
  | steps + 1, es, cs => do
    let (key, cs) ← readKey cs
    let (_, cs) ← readMark '=' cs
    let (v, cs) ← readValueIn steps (skipBlank cs)
    let es ← Entry.insert? 0 v key es
    match skipBlank cs with
    | '\x7d' :: cs => return (es, cs)
    | ',' :: cs => readEntries steps es (skipBlank cs)
    | _ => none

end

/-- A value. -/
def readValue : Reader Value := fun cs => readValueIn (2 * cs.length + 2) cs

/-! ## Documents -/

/-- A document of which some lines have been read. -/
structure Draft where
  /-- The entries so far. -/
  entries : List (String × Entry)
  /-- The table that was opened last. -/
  header : List String
  /-- The number of headers so far. -/
  sections : Nat
  deriving Inhabited

/-- Read one line up to its comment, and enter what it says. -/
def readLine (d : Draft) : List Char → Option (Draft × List Char)
  | '[' :: '[' :: cs => do
    let (path, cs) ← readKey (skipBlank cs)
    let entries ← Entry.append? path d.entries
    match cs with
    | ']' :: ']' :: cs => return (⟨entries, path, d.sections + 1⟩, cs)
    | _ => none
  | '[' :: cs => do
    let (path, cs) ← readKey (skipBlank cs)
    let entries ← Entry.declare? path d.entries
    match cs with
    | ']' :: cs => return (⟨entries, path, d.sections + 1⟩, cs)
    | _ => none
  | '#' :: cs => some (d, '#' :: cs)
  | cs => do
    let (key, cs) ← readKey cs
    let (_, cs) ← readMark '=' cs
    let (v, cs) ← readValue (skipBlank cs)
    let entries ← Entry.define? d.header d.sections key v d.entries
    return ({ d with entries := entries }, cs)

/-- Read all lines, in at most `steps` steps. -/
def readDocument : Nat → Draft → List Char → Option Draft
  | 0, _, _ => none
  | steps + 1, d, cs =>
    match skipBlank cs with
    | [] => some d
    | '\n' :: cs => readDocument steps d cs
    | cs => do
      let (d, cs) ← readLine d cs
      match ← skipComment? (skipBlank cs) with
      | [] => return d
      | '\n' :: cs => readDocument steps d cs
      | _ => none

/-- The table that a document stands for, if it is well-formed. Each line takes at least one
character, so the number of characters bounds the number of lines. -/
def parse? (text : String) : Option (List (String × Value)) := do
  let cs := text.toList
  let d ← readDocument (cs.length + 1) ⟨[], [], 0⟩ cs
  return Entry.closeEntries d.entries

end WorkflowLint.Toml
