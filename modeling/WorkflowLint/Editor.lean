import WorkflowLint.Lint

/-!
# Sessions with an editor

An editor opens, changes, saves and closes documents. After each of these events the diagnostics
of the document are published anew; a closed document is published once more, with nothing to say.

## Main definitions

* `WorkflowLint.Editor.Event` — what an editor tells.
* `WorkflowLint.Editor.Marker` — a diagnostic as an editor shows it.
* `WorkflowLint.Editor.Publication` — what an editor is told.
* `WorkflowLint.Editor.run` — the publications of a session, one per event.
-/

set_option autoImplicit false

namespace WorkflowLint.Editor

/-- A document as the editor last sent it. -/
structure Document where
  /-- The name of the document. -/
  uri : String
  /-- The version that came with the text. -/
  version : Int
  /-- The whole text. -/
  text : String
  deriving DecidableEq, Repr, Inhabited

/-- What happens to a document. -/
inductive Event where
  /-- The document is opened, or opened again. -/
  | open (document : Document)
  /-- The text is replaced, by each of the texts in turn. -/
  | change (uri : String) (version : Int) (texts : List String)
  /-- The document is saved. -/
  | save (uri : String)
  /-- The document is closed. -/
  | close (uri : String)
  deriving DecidableEq, Repr

/-- The name of the document an event is about. -/
def Event.uri : Event → String
  | .open document => document.uri
  | .change uri _ _ => uri
  | .save uri => uri
  | .close uri => uri

/-- The number that stands for a severity. -/
def severityCode : Severity → Int
  | .error => 1
  | .warning => 2

/-- A diagnostic as an editor shows it. -/
structure Marker where
  /-- Where the text is marked. -/
  range : Range
  /-- What is said about it. -/
  message : String
  /-- The number of the severity. -/
  severity : Int
  /-- Who says it. -/
  source : String
  deriving DecidableEq, Repr, Inhabited

/-- The marker of a diagnostic. Ranges are counted alike on both sides. -/
def Marker.ofDiagnostic (d : Diagnostic) : Marker :=
  ⟨d.range, d.message, severityCode d.severity, "julietscript"⟩

/-- The markers that are shown for a document from now on. -/
structure Publication where
  /-- The name of the document. -/
  uri : String
  /-- The version the markers are about; a closed document has none. -/
  version : Option Int
  /-- The markers, in reading order. -/
  diagnostics : List Marker
  deriving DecidableEq, Repr, Inhabited

/-- The open documents. -/
abbrev Session := List Document

namespace Session

/-- The open document of the given name. -/
def find? (s : Session) (uri : String) : Option Document :=
  List.find? (fun d => d.uri == uri) s

/-- Forget the document of the given name. -/
def erase (s : Session) (uri : String) : Session :=
  List.filter (fun d => d.uri != uri) s

/-- Hold a document, in place of any other of its name. -/
def insert (s : Session) (d : Document) : Session := d :: s.erase d.uri

/-- The open documents after an event. A change without any text leaves a document as it is, its
version included. -/
def after (s : Session) : Event → Session
  | .open document => s.insert document
  | .change uri version texts =>
    match texts.getLast?, s.find? uri with
    | some text, some _ => s.insert ⟨uri, version, text⟩
    | _, _ => s
  | .save _ => s
  | .close uri => s.erase uri

/-- What is published about the document of the given name. -/
def publish (s : Session) (uri : String) : Publication :=
  match s.find? uri with
  | some d => ⟨uri, some d.version, (lint d.text).map .ofDiagnostic⟩
  | none => ⟨uri, none, []⟩

end Session

/-- The publications of a session that starts with the given documents, one per event. -/
def runFrom (s : Session) : List Event → List Publication
  | [] => []
  | e :: es =>
    let s' := s.after e
    s'.publish e.uri :: runFrom s' es

/-- The publications of a session, one per event. -/
def run (es : List Event) : List Publication := runFrom [] es

end WorkflowLint.Editor
