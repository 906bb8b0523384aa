import WorkflowLint.Path

/-!
# File trees

A tree of files, directories and symbolic links, seen from a working directory. Paths are followed
from left to right. A link in the middle of a path is replaced by its target; only so many links are
followed in one go, so that circles end in an error. Directories may be listed and entered by
anyone, but a file may be sealed, and is then found and not read.

The system answers for paths, and a path must not be too long. To find out the absolute path of a
file without any links, a path is rewritten link by link; the system is asked at each step whether
there is a link, and what it does not answer for is kept.

## Main definitions

* `WorkflowLint.Node` — a file, a directory or a link.
* `WorkflowLint.FileTree` — a tree and a working directory.
* `WorkflowLint.FileTree.resolve` — where a path leads.
* `WorkflowLint.FileTree.canonical?` — a path, rewritten without links.
* `WorkflowLint.FileTree.read` — the contents of a file.
* `WorkflowLint.FileError` — why a path leads nowhere.
-/

set_option autoImplicit false

namespace WorkflowLint

/-- Why a path leads nowhere. -/
inductive FileError where
  | notFound
  | notADirectory
  | isADirectory
  | tooManyLinks
  | nameTooLong
  | permissionDenied
  deriving DecidableEq, Repr, Inhabited

/-- The wording of a file error. -/
def FileError.message : FileError → String
  | notFound => "No such file or directory"
  | notADirectory => "Not a directory"
  | isADirectory => "Is a directory"
  | tooManyLinks => "Too many levels of symbolic links"
  | nameTooLong => "File name too long"
  | permissionDenied => "Permission denied"

/-- An entry of a file tree. -/
inductive Node where
  /-- A file and its bytes. -/
  | file (bytes : List UInt8)
  /-- A file that may not be read. -/
  | sealedFile
  /-- A directory and its entries. -/
  | directory (entries : List (String × Node))
  /-- A symbolic link and its target. -/
  | link (target : String)
  deriving Inhabited

namespace Node

/-- The entry of the given name. -/
def child? : Node → String → Option Node
  | directory entries, name => entries.lookup name
  | _, _ => none

/-- The entry that is reached by going down along `parts`. -/
def descend? (n : Node) (parts : List String) : Option Node := parts.foldlM child? n

/-- Is this a file? -/
def isFile : Node → Bool
  | file _ => true
  | sealedFile => true
  | _ => false

/-- Is this a directory? -/
def isDirectory : Node → Bool
  | directory _ => true
  | _ => false

/-- The names in a directory. Anything else has none. -/
def names : Node → List String
  | directory entries => entries.map Prod.fst
  | _ => []

/-- Put an entry into a directory, in place of any other of its name. -/
def put (n : Node) (name : String) (entry : Node) : Node :=
  match n with
  | directory entries => directory ((entries.filter fun e => e.1 != name) ++ [(name, entry)])
  | other => other

/-- Put an entry at the end of `parts`, and make the directories on the way as needed. -/
def putAt (n : Node) (parts : List String) (entry : Node) : Node :=
  match parts with
  | [] => entry
  | name :: parts => n.put name (((n.child? name).getD (directory [])).putAt parts entry)

end Node

/-- A tree of files and a working directory in it, given by its components from the root. -/
structure FileTree where
  /-- The root of the tree. -/
  root : Node
  /-- The working directory. -/
  workingDirectory : List String
  deriving Inhabited

namespace FileTree

/-- The number of links that are followed for one path. -/
def linkLimit : Nat := 40

/-- The greatest length of a component, in bytes. -/
def nameLimit : Nat := 255

/-- The least length that a path may not have, in bytes. -/
def pathLimit : Nat := 4096

/-- The components of the target of a link. -/
def targetParts (target : String) : List String :=
  (Path.splitSlash target.toList).map String.ofList

/-- Follow `todo` from the directory `here`, with at most `links` links on the way. The result is
the place that is reached, by its components from the root, and the entry there. A link at the very
end is followed only if `follow` is set. -/
def walk (root : Node) (follow : Bool) (links : Nat) (here : List String) :
    List String → Except FileError (List String × Node)
  | [] =>
    match root.descend? here with
    | some n => .ok (here, n)
    | none => .error .notFound
  | name :: todo =>
    match root.descend? here with
    | some (.directory entries) =>
      if name == "" || name == "." then walk root follow links here todo
      else if name == ".." then walk root follow links here.dropLast todo
      else if name.toList.contains '\x00' then .error .notFound
      else if name.utf8ByteSize > nameLimit then .error .nameTooLong
      else
        match entries.lookup name with
        | none => .error .notFound
        | some (.link target) =>
          if todo.isEmpty && !follow then .ok (here ++ [name], .link target)
          else
            match links with
            | 0 => .error .tooManyLinks
            | links + 1 =>
              walk root follow links (if target.startsWith "/" then [] else here)
                (targetParts target ++ todo)
        | some _ => walk root follow links (here ++ [name]) todo
    | some _ => .error .notADirectory
    | none => .error .notFound
termination_by todo => (links, todo.length)

/-- The directory that a path starts from. -/
def base (t : FileTree) (p : Path) : List String := if p.isAbsolute then [] else t.workingDirectory

/-- Where a path leads. A path with the character U+0000 is not looked up; to those who ask whether
there is anything it leads nowhere. -/
def resolve (t : FileTree) (follow : Bool) (p : Path) : Except FileError (List String × Node) :=
  if p.hasNull then .error .notFound
  else if p.text.utf8ByteSize ≥ pathLimit then .error .nameTooLong
  else walk t.root follow linkLimit (t.base p) p.parts

/-- The entry that a path leads to, links followed. -/
def find? (t : FileTree) (p : Path) : Option Node := (t.resolve true p).toOption.map Prod.snd

/-- Does a path lead to a file? -/
def isFile (t : FileTree) (p : Path) : Bool := (t.find? p).any Node.isFile

/-- Does a path lead to a directory? -/
def isDirectory (t : FileTree) (p : Path) : Bool := (t.find? p).any Node.isDirectory

/-- Can it be told what a path leads to? A path may well lead nowhere; only names that are too long
are in the way. -/
def canTest (t : FileTree) (p : Path) : Bool :=
  match t.resolve true p with
  | .error .nameTooLong => false
  | _ => true

/-- Does a path lead to anything, be it a link without a target? -/
def contains (t : FileTree) (p : Path) : Bool := (t.resolve false p).toOption.isSome

/-- The names in the directory that a path leads to. -/
def names (t : FileTree) (p : Path) : List String := ((t.find? p).map Node.names).getD []

/-! ## Paths without links -/

/-- The target of the link that a path leads to, if the system says that it leads to one. -/
def target? (t : FileTree) (p : Path) : Option String :=
  match t.resolve false p with
  | .ok (_, .link target) => some target
  | _ => none

/-- The number of links within links that may be replaced. -/
def nestingLimit : Nat := 1000

/-- Where the target of a link starts that is met behind the path `p`. -/
def targetStart (p : Path) (target : String) : Path :=
  if target.startsWith "/" then ⟨.root, []⟩ else p

/-- The path `p`, gone on along `todo`, with links replaced by their targets, at most `nesting` of
them within each other. It is not looked whether there is anything on the way but links: what is
none, or is not seen because its path is too long, is kept. The targets of the `pending` links are
just being gone along; if one of these links is met again then they go in a circle, and the path is
left as it is by then, with all that was to come. -/
def replaceLinks (t : FileTree) (nesting : Nat) (pending : List Path) (p : Path) :
    List String → Except (Option Path) Path
  | [] => .ok p
  | name :: todo =>
    if name == "" || name == "." then replaceLinks t nesting pending p todo
    else if name == ".." then replaceLinks t nesting pending p.back todo
    else
      match t.target? (p.extend name) with
      | none => replaceLinks t nesting pending (p.extend name) todo
      | some target =>
        let rest := Path.ofString ("/".intercalate todo)
        if pending.contains (p.extend name) then .error (some ((p.extend name).join rest))
        else
          match nesting with
          | 0 => .error none
          | nesting + 1 =>
            match replaceLinks t nesting (p.extend name :: pending) (targetStart p target)
                (targetParts target) with
            | .ok q => replaceLinks t (nesting + 1) pending q todo
            | .error left => .error (left.map (·.join rest))
termination_by todo => (nesting, todo.length)

/-- One step from the place `here`, back or down, without a look at what is there. -/
def stepFrom (here : List String) (name : String) : List String :=
  if name == ".." then here.dropLast else here ++ [name]

/-- The path that leads from the root where `p` leads from the working directory, if there are no
links. -/
def absolute (t : FileTree) (p : Path) : Path := ⟨.root, p.parts.foldl stepFrom (t.base p)⟩

/-- The absolute path, without links, of the place that a path leads to. Links whose own paths are
too long are not seen, and stay in it. Where links go in a circle they stay as well, unless the
system does not get to the end of the path that is left; then there is no such path. -/
def canonical? (t : FileTree) (p : Path) : Option Path :=
  match t.replaceLinks nestingLimit [] p.start p.parts with
  | .ok q => some (t.absolute q)
  | .error none => none
  | .error (some q) =>
    match t.resolve true (t.absolute q) with
    | .error .tooManyLinks => none
    | _ => some (t.absolute q)

/-! ## Contents -/

/-- The bytes of the file that a path leads to. -/
def read (t : FileTree) (p : Path) : Except FileError (List UInt8) :=
  match t.resolve true p with
  | .ok (_, .file bytes) => .ok bytes
  | .ok (_, .sealedFile) => .error .permissionDenied
  | .ok _ => .error .isADirectory
  | .error e => .error e

/-- The working directory as a path. -/
def workingPath (t : FileTree) : Path := ⟨.root, t.workingDirectory⟩

end FileTree

end WorkflowLint
