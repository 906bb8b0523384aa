import WorkflowLint.FileTree
import WorkflowLint.Glob.Wildcard

/-!
# Patterns for paths

A pattern is a path some of whose components stand for more than themselves: a component with `*`,
`?` or `[` in it is a wildcard for names, and the component `**` stands for any number of
directories, none included. Hidden names are names like others, and links to directories are
entered.

## Main definitions

* `WorkflowLint.Glob.Piece` — a component of a pattern.
* `WorkflowLint.Glob.Pattern.ofString` — read a pattern.
* `WorkflowLint.Glob.Pattern.expand` — the paths that a pattern stands for.
-/

set_option autoImplicit false

namespace WorkflowLint.Glob

/-- A component of a pattern. -/
inductive Piece where
  /-- A name that stands for itself. -/
  | literal (name : String)
  /-- A pattern for names. -/
  | wildcard (w : Wildcard)
  /-- Any number of directories; at the end of a pattern, also everything in them. -/
  | anyDepth
  /-- The empty component behind a slash at the end of a pattern: directories only. -/
  | directoryOnly
  deriving DecidableEq, Repr

namespace Piece

/-- Does the component stand for more than itself? -/
def isMagic : Piece → Bool
  | wildcard _ => true
  | anyDepth => true
  | _ => false

/-- Read a component. -/
def ofChars (cs : List Char) : Piece :=
  if cs == ['*', '*'] then .anyDepth
  else if cs.any fun c => c == '*' || c == '?' || c == '[' then .wildcard (.ofChars cs)
  else .literal (String.ofList cs)

end Piece

/-- A pattern for paths. -/
structure Pattern where
  /-- Where the paths start. -/
  anchor : Anchor
  /-- The components. -/
  pieces : List Piece
  deriving DecidableEq, Repr

namespace Pattern

/-- Read a pattern. Repeated slashes count as one; a slash at the end asks for directories. -/
def ofString (s : String) : Pattern :=
  let cs := s.toList
  let parts := (Path.splitSlash cs).filter fun part => !part.isEmpty
  let last := if cs.getLast? == some '/' then [Piece.directoryOnly] else []
  ⟨Path.anchorOf cs, parts.map Piece.ofChars ++ last⟩

/-- Is the entry called `name` a directory, in the directory that `p` leads to? The listing of a
directory tells what its entries are, however long their paths may be. Only where a link leads is
looked up. -/
def listsDirectory (t : FileTree) (p : Path) (name : String) : Bool :=
  match (t.find? p).bind (·.child? name) with
  | some (.link _) => t.isDirectory (p.extend name)
  | some n => n.isDirectory
  | none => false

/-- Everything below `p`, down to `depth` levels: all entries, or the directories among them. -/
def below (t : FileTree) (directoriesOnly : Bool) : Nat → Path → List Path
  | 0, _ => []
  | depth + 1, p =>
    (t.names p).flatMap fun name =>
      let q := p.extend name
      if directoriesOnly && !listsDirectory t p name then []
      else q :: below t directoriesOnly depth q

/-- The paths that one more component adds to `p`. Unless the component is the last one, only
directories are of use. Any number of directories may be none, so that `p` itself is among the
paths, even if it is no directory or leads nowhere; later releases of the interpreter (3.11.10,
3.12) leave such a `p` out. No path has as many components as the length limit of paths, so that
limit bounds the depth. -/
def step (t : FileTree) (isLast : Bool) (p : Path) : Piece → List Path
  | .literal name => let q := p.extend name; if t.contains q then [q] else []
  | .wildcard w =>
    ((t.names p).filter fun name => w.accepts name.toList).filterMap fun name =>
      if isLast || listsDirectory t p name then some (p.extend name) else none
  | .anyDepth => p :: below t (!isLast) FileTree.pathLimit p
  | .directoryOnly => if t.isDirectory p then [p] else []

/-- The paths that the components `pieces` add to `p`. -/
def expandFrom (t : FileTree) : List Piece → Path → List Path
  | [], p => [p]
  | piece :: pieces, p => (step t pieces.isEmpty p piece).flatMap (expandFrom t pieces)

/-- The components before the first that stands for more than itself. -/
def fixedParts : List Piece → List String
  | .literal name :: pieces => name :: fixedParts pieces
  | _ => []

/-- The path before the first wildcard, below which everything lies that a pattern stands for. -/
def start (pattern : Pattern) : Path := ⟨pattern.anchor, fixedParts pattern.pieces⟩

/-- Is the system asked to list a directory whose path it refuses, because of the character U+0000?
This happens if the character stands in front of the first wildcard, and it ends a run. Behind a
wildcard no such path comes up, because no entry has such a name. -/
def isUnlistable (pattern : Pattern) : Bool :=
  pattern.pieces.any Piece.isMagic && pattern.start.hasNull

/-- The paths that a pattern stands for; a path that is reached in several ways is listed as often.
What stands before the first wildcard is taken as it is. A pattern without any wildcard stands for
itself, if it leads anywhere. The working directory itself is not listed by an empty path. -/
def expand (t : FileTree) (pattern : Pattern) : List Path :=
  if pattern.pieces.any Piece.isMagic then
    let pieces := pattern.pieces.drop pattern.start.parts.length
    (expandFrom t pieces pattern.start).filter fun p => p.isAbsolute || !p.parts.isEmpty
  else
    let fits :=
      if pattern.pieces.contains .directoryOnly then t.isDirectory pattern.start
      else t.contains pattern.start
    if fits then [pattern.start] else []

end Pattern

end WorkflowLint.Glob
