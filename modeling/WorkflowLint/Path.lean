/-!
# Paths

A path is a sequence of components behind an anchor. Repeated slashes, `.` components and a slash at
the end carry no meaning and vanish when a path is read; `..` components stay, because
removing them would be wrong where links are involved. Exactly two slashes at the start are an
anchor of their own.

## Main definitions

* `WorkflowLint.Path`, `WorkflowLint.Path.ofString`, `WorkflowLint.Path.text`.
* `WorkflowLint.Path.join`, `WorkflowLint.Path.parent`, `WorkflowLint.Path.withoutDots`.
* `WorkflowLint.Path.extend`, `WorkflowLint.Path.back` — one step down, and one step back.
* `WorkflowLint.Path.le` — the order by components.
-/

set_option autoImplicit false

namespace WorkflowLint

/-- Where a path starts. -/
inductive Anchor where
  /-- At the working directory. -/
  | relative
  /-- At the root. -/
  | root
  /-- At the root, written with two slashes. -/
  | doubleRoot
  deriving DecidableEq, Repr, Inhabited

/-- How an anchor is written. -/
def Anchor.text : Anchor → String
  | relative => ""
  | root => "/"
  | doubleRoot => "//"

/-- A path: an anchor and the components behind it. -/
structure Path where
  /-- Where the path starts. -/
  anchor : Anchor
  /-- The components. None of them is empty; in a path that has been read, none is `.`. -/
  parts : List String
  deriving DecidableEq, Repr, Inhabited

namespace Path

/-- Cut a text at every slash. -/
def splitSlash : List Char → List (List Char)
  | [] => [[]]
  | c :: cs =>
    match splitSlash cs with
    | [] => [[c]]
    | part :: parts => if c == '/' then [] :: part :: parts else (c :: part) :: parts

/-- The anchor of the path written as `cs`. -/
def anchorOf (cs : List Char) : Anchor :=
  match (cs.takeWhile (· == '/')).length with
  | 0 => .relative
  | 2 => .doubleRoot
  | _ => .root

/-- Read a path. -/
def ofString (s : String) : Path :=
  let cs := s.toList
  { anchor := anchorOf cs
    parts := (splitSlash cs).filterMap fun part =>
      if part.isEmpty || part == ['.'] then none else some (String.ofList part) }

/-- Write a path. The path without anchor and components is `.`. -/
def text (p : Path) : String :=
  match p.anchor, p.parts with
  | .relative, [] => "."
  | anchor, parts => anchor.text ++ "/".intercalate parts

/-- Does the path start at the root? -/
def isAbsolute (p : Path) : Bool := p.anchor != .relative

/-- The path `q`, read from `p` if it is relative. -/
def join (p q : Path) : Path :=
  if q.isAbsolute then q else { p with parts := p.parts ++ q.parts }

/-- The path without its components. -/
def start (p : Path) : Path := ⟨if p.isAbsolute then .root else .relative, []⟩

/-- The path with one more component. -/
def extend (p : Path) (name : String) : Path := { p with parts := p.parts ++ [name] }

/-- One step back, in the path alone. Nothing is known of what is in front of a relative path, so
that a step back from there is written down; the root has nothing in front of it. -/
def back (p : Path) : Path :=
  match p.parts.getLast? with
  | none => if p.isAbsolute then p else p.extend ".."
  | some last => if last == ".." then p.extend ".." else { p with parts := p.parts.dropLast }

/-- Does the path hold the character U+0000? The system refuses such a path, whatever there is. -/
def hasNull (p : Path) : Bool := p.parts.any fun part => part.toList.contains '\x00'

/-- The path without its last component. -/
def parent (p : Path) : Path := { p with parts := p.parts.dropLast }

/-- The path without the `.` components that a pattern may bring along. -/
def withoutDots (p : Path) : Path := { p with parts := p.parts.filter (· != ".") }

/-- The order by components: the anchors are compared first, then the components one by one, each
by code points. -/
def le (p q : Path) : Bool :=
  !(q.anchor.text :: q.parts).lex (p.anchor.text :: p.parts)

end Path

end WorkflowLint
