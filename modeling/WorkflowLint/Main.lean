import WorkflowLint.Command
import WorkflowLint.Editor.Message

/-!
# The executable

The outer layer of the program. For a run over files it looks at the part of the file system that
the run is about, and hands it to `WorkflowLint.Command.perform`; for an editor it passes messages
to and from `WorkflowLint.Editor.Server.handle`. Nothing is decided here.

## Main definitions

* `WorkflowLint.Main.treeFor` — the files that a run is about.
* `WorkflowLint.Main.serve` — a session over a pair of streams.
* `main` — the program.
-/

set_option autoImplicit false

namespace WorkflowLint.Main

/-! ## Looking at files -/

/-- The entry of the file system at a path. -/
def entryAt (p : Path) : IO IO.FS.DirEntry := return ⟨← IO.currentDir, p.text⟩

/-- The kind of an entry, if there is one. -/
def kindOf? (e : IO.FS.DirEntry) : IO (Option IO.FS.FileType) :=
  try return some (← e.path.symlinkMetadata).type
  catch _ => return none

/-- The text of the absolute path, without links, of the place that an entry leads to. An entry that
leads nowhere keeps its own. -/
def realText (e : IO.FS.DirEntry) : IO String :=
  try return (← IO.FS.realPath e.path).toString
  catch _ => return e.path.toString

/-- The absolute path, without links, of the place that a path leads to. -/
def realPath (p : Path) : IO Path := return .ofString (← realText (← entryAt p))

/-- An entry with all names below it, but without the contents of files, and the places that links
below it lead to. -/
partial def survey (e : IO.FS.DirEntry) : IO (Option Node × List Path) := do
  match ← kindOf? e with
  | some .dir =>
    let children ← try e.path.readDir catch _ => pure #[]
    let mut nodes := []
    let mut targets := []
    for child in children do
      let (node, more) ← survey child
      nodes := (node.toList.map fun n => (child.fileName, n)) ++ nodes
      targets := more ++ targets
    return (some (.directory nodes.reverse), targets)
  | some .symlink =>
    let target ← realText e
    return (some (.link target), [.ofString target])
  | some .file => return (some (.file []), [])
  | _ => return (none, [])

/-- What has been seen of the file system. -/
structure View where
  /-- The entries seen so far. -/
  root : Node
  /-- The directories that have been seen with everything below them. -/
  known : List Path

/-- Nothing but the root. -/
def View.start : View := ⟨.directory [], []⟩

/-- See what lies on the way along an absolute path. -/
def View.follow (v : View) (p : Path) : IO View := do
  let mut v := v
  for (name, k) in p.parts.zipIdx do
    let parent ← realPath ⟨.root, p.parts.take k⟩
    let place := parent.parts ++ [name]
    if name != ".." && (v.root.descend? place).isNone then
      let entry ← entryAt ⟨.root, place⟩
      match ← kindOf? entry with
      | some .dir => v := { v with root := v.root.putAt place (.directory []) }
      | some .symlink => v := { v with root := v.root.putAt place (.link (← realText entry)) }
      | some .file => v := { v with root := v.root.putAt place (.file []) }
      | _ => pure ()
  return v

/-- See everything at and below the given absolute paths, and where links from there lead. -/
partial def View.explore (v : View) : List Path → IO View
  | [] => return v
  | p :: ps => do
    let v ← v.follow p
    let place ← realPath p
    if v.known.any fun k => k.parts.isPrefixOf place.parts then v.explore ps
    else
      match ← survey (← entryAt place) with
      | (some (.directory entries), targets) =>
        let root := v.root.putAt place.parts (.directory entries)
        View.explore ⟨root, place :: v.known⟩ (targets ++ ps)
      | _ => v.explore ps

/-- Read the contents of a file that has been seen. A file that may not be read is sealed. -/
def View.load (v : View) (p : Path) : IO View := do
  let place ← realPath p
  match v.root.descend? place.parts with
  | some (.file _) =>
    let node ←
      try pure (.file (← IO.FS.readBinFile place.text).toList) catch _ => pure .sealedFile
    return { v with root := v.root.putAt place.parts node }
  | _ => return v

/-- The files that a run is about. -/
def treeFor (o : Command.LintOptions) : IO FileTree := do
  let here ← realPath ⟨.relative, []⟩
  let manifest := here.join (.ofString (o.manifest.getD Manifest.fileName))
  let v ← (← View.start.follow here).follow manifest
  let v ← v.load manifest
  match Command.settings? ⟨v.root, here.parts⟩ o with
  | none => return ⟨v.root, here.parts⟩
  | some s =>
    let v ← v.explore ((Command.places s).map here.join)
    let v ← v.load manifest
    match FileSet.collect ⟨v.root, here.parts⟩ s.root s.globs with
    | .error _ => return ⟨v.root, here.parts⟩
    | .ok files => return ⟨(← files.foldlM View.load v).root, here.parts⟩

/-! ## Talking to an editor -/

/-- Read the header of a message, up to the empty line behind it. Gives the length of the message,
or nothing at the end of the stream. -/
partial def readHeader? (input : IO.FS.Stream) (length : Nat) : IO (Option Nat) := do
  let line ← input.getLine
  if line.isEmpty then return none
  if line == "\r\n" || line == "\n" then return some length
  readHeader? input ((Editor.contentLength? line).getD length)

/-- Read the given number of bytes, or as many as there are. -/
partial def readBytes (input : IO.FS.Stream) (count : Nat) (bytes : ByteArray) : IO ByteArray := do
  if count ≤ bytes.size then return bytes
  let more ← input.read (count - bytes.size).toUSize
  if more.isEmpty then return bytes
  readBytes input count (bytes ++ more)

/-- Write a message. Its text has as many bytes as characters. -/
def writeMessage (output : IO.FS.Stream) (message : Json) : IO Unit := do
  let text := message.render
  output.putStr ("Content-Length: " ++ toString text.utf8ByteSize ++ "\r\n\r\n" ++ text)
  output.flush

/-- Serve an editor over a pair of streams. -/
partial def serve (input output : IO.FS.Stream) (server : Editor.Server) : IO UInt32 := do
  let some length ← readHeader? input 0 | return 0
  let bytes ← readBytes input length .empty
  let message := (Text.Utf8.decode? bytes.toList >>= Json.read?).map Editor.Message.ofJson
  let (server, answers) := server.handle (message.getD .remark)
  answers.forM (writeMessage output)
  match server.ended with
  | some code => return code.toUInt32
  | none => serve input output server

/-! ## Running -/

/-- What the program says about its surroundings. -/
def environment : Command.Environment := ⟨"not needed", "any", "built in", "built in"⟩

/-- Write down what a command leaves behind. -/
def conclude : Command.Outcome → IO UInt32
  | .exit code out err => do
    IO.print out
    IO.eprint err
    return code.toUInt32
  | .broken .undecodable => do
    IO.eprintln "The manifest is not valid UTF-8."
    return 1
  | .broken .nullCharacter => do
    IO.eprintln "A path holds the character U+0000."
    return 1
  | .broken .unshowable => do
    IO.eprintln "The manifest holds an integer that is too long to be shown."
    return 1
  | .broken .untestable => do
    IO.eprintln "File name too long."
    return 1
  | .broken .circular => do
    IO.eprintln "Links go in a circle."
    return 1

/-- Carry out a request. -/
def carryOut : Command.Request → IO UInt32
  | .serve false => do serve (← IO.getStdin) (← IO.getStdout) .start
  | .lint o => do conclude (Command.perform environment (← treeFor o) (.lint o))
  | r => conclude (Command.perform environment default r)

end WorkflowLint.Main

/-- The program. -/
def main (arguments : List String) : IO UInt32 :=
  WorkflowLint.Main.carryOut (.ofArguments arguments)
