import WorkflowLint.Editor
import WorkflowLint.Json.Reader
import WorkflowLint.Report

/-!
# Messages between an editor and the server

Events and publications travel as JSON messages. A message with an identifier asks for a reply, any
other is only told. A document is sent as a whole when it is opened; after that, an editor may send
no more than what it puts in place of some stretch of the text.

## Main definitions

* `WorkflowLint.Editor.Edit` — a change to a text.
* `WorkflowLint.Editor.Message` — what a message says.
* `WorkflowLint.Editor.Message.ofJson` — understand a message.
* `WorkflowLint.Editor.Server`, `WorkflowLint.Editor.Server.handle` — the server, one message at a
  time.
-/

set_option autoImplicit false

namespace WorkflowLint

namespace Json

/-- The field of the given name. -/
def field? : Json → String → Option Json
  | record fields, name => fields.lookup name
  | _, _ => none

/-- The string that a value is. -/
def text? : Json → Option String
  | text s => some s
  | _ => none

/-- The whole number that a value is. -/
def number? : Json → Option Int
  | number n => some n
  | _ => none

/-- The items that a value has. -/
def items? : Json → Option (List Json)
  | list items => some items
  | _ => none

end Json

namespace Editor

/-! ## Edits -/

/-- What is behind the first line of a text. Unlike scripts, documents that are edited have three
ends of lines: a line feed, a carriage return, and both. -/
def behindLine : List Char → List Char
  | [] => []
  | '\r' :: '\n' :: cs => cs
  | '\r' :: cs => cs
  | '\n' :: cs => cs
  | _ :: cs => behindLine cs

/-- What is behind a number of UTF-16 code units of the first line, or behind all of it if there are
fewer. -/
def behindUnits : Nat → List Char → List Char
  | 0, cs => cs
  | _, [] => []
  | count, c :: cs =>
    if c == '\r' || c == '\n' then c :: cs else behindUnits (count - Position.units c) cs

/-- What is behind a position in a text. -/
def behind (p : Position) (cs : List Char) : List Char :=
  behindUnits p.character.toNat (Nat.repeat behindLine p.line.toNat cs)

/-- A change to a text. -/
structure Edit where
  /-- The stretch that is replaced; if there is none, all of the text is. -/
  range : Option Range
  /-- What is put in its place. -/
  text : String
  deriving DecidableEq, Repr

/-- The text after an edit. -/
def Edit.apply (e : Edit) (text : String) : String :=
  match e.range with
  | none => e.text
  | some r =>
    let cs := text.toList
    let before := cs.take (cs.length - (behind r.start cs).length)
    String.ofList (before ++ e.text.toList ++ behind r.stop cs)

/-- The texts that come up while some edits are made, one after the other. -/
def Edit.texts : List Edit → String → List String
  | [], _ => []
  | e :: edits, text => e.apply text :: Edit.texts edits (e.apply text)

/-! ## Understanding messages -/

/-- What a message says. -/
inductive Message where
  /-- The editor introduces itself. -/
  | introduce (id : Json)
  /-- The session is about to end. -/
  | shutdown (id : Json)
  /-- The session ends. -/
  | exit
  /-- Something happens to a document as a whole. -/
  | event (e : Event)
  /-- A document is edited. -/
  | edit (uri : String) (version : Int) (edits : List Edit)
  /-- Something is asked for that the server does not know. -/
  | question (id : Json)
  /-- Something that the server need not know. -/
  | remark

/-- A position in a message. -/
def positionOf? (j : Json) : Option Position := do
  return ⟨← j.field? "line" >>= Json.number?, ← j.field? "character" >>= Json.number?⟩

/-- A range in a message. -/
def rangeOf? (j : Json) : Option Range := do
  return ⟨← j.field? "start" >>= positionOf?, ← j.field? "end" >>= positionOf?⟩

/-- An edit in a message. -/
def editOf? (j : Json) : Option Edit := do
  return ⟨j.field? "range" >>= rangeOf?, ← j.field? "text" >>= Json.text?⟩

/-- What happens to a document, in a message with the given method and parameters. -/
def happening? (method : String) (params : Json) : Option Message := do
  let document ← params.field? "textDocument"
  let uri ← document.field? "uri" >>= Json.text?
  match method with
  | "textDocument/didOpen" =>
    let version ← document.field? "version" >>= Json.number?
    let text ← document.field? "text" >>= Json.text?
    return .event (.open ⟨uri, version, text⟩)
  | "textDocument/didChange" =>
    let version ← document.field? "version" >>= Json.number?
    let changes ← params.field? "contentChanges" >>= Json.items?
    return .edit uri version (← changes.mapM editOf?)
  | "textDocument/didSave" => return .event (.save uri)
  | "textDocument/didClose" => return .event (.close uri)
  | _ => none

/-- Understand a message. What makes no sense is taken for a question if it has an identifier, and
for a remark otherwise. -/
def Message.ofJson (j : Json) : Message :=
  let method := (j.field? "method" >>= Json.text?).getD ""
  match j.field? "id" with
  | some id =>
    match method with
    | "initialize" => .introduce id
    | "shutdown" => .shutdown id
    | _ => .question id
  | none =>
    if method == "exit" then .exit
    else (happening? method ((j.field? "params").getD .null)).getD .remark

/-- The length of a message in bytes, given a line of the header in front of it that tells it. -/
def contentLength? (line : String) : Option Nat :=
  let cs := line.toList
  let name := (cs.takeWhile (· != ':')).map Char.toLower
  if name == "content-length".toList then
    some (Json.digitsValue (cs.filter Char.isDigit))
  else none

/-! ## Writing messages -/

/-- The field that every message has. -/
def envelope : String × Json := ("jsonrpc", .text "2.0")

/-- The reply to the message with the given identifier. -/
def reply (id result : Json) : Json := .record [envelope, ("id", id), ("result", result)]

/-- The reply to a question that the server does not know. -/
def refusal (id : Json) : Json :=
  .record [envelope, ("id", id),
    ("error", .record [("code", .number (-32601)), ("message", .text "Method not found")])]

/-- How the server introduces itself: it wants to be told of documents and of edits to them. -/
def introduction : Json :=
  .record
    [("capabilities",
        .record [("textDocumentSync",
          .record [("openClose", .truth true), ("change", .number 2), ("save", .truth true)])]),
      ("serverInfo",
        .record [("name", .text "julietscript-lsp"), ("version", .text "v0.1.0")])]

/-- A marker in a message. -/
def Marker.toJson (m : Marker) : Json :=
  .record
    [("range", Report.rangeJson m.range), ("message", .text m.message),
      ("severity", .number m.severity), ("source", .text m.source)]

/-- A publication as a message. -/
def Publication.toJson (p : Publication) : Json :=
  .record [envelope, ("method", .text "textDocument/publishDiagnostics"),
    ("params", .record <|
      [("uri", .text p.uri)] ++ (p.version.toList.map fun v => ("version", .number v)) ++
        [("diagnostics", .list (p.diagnostics.map Marker.toJson))])]

/-! ## The server -/

/-- The state of the server. -/
structure Server where
  /-- The open documents. -/
  session : Session
  /-- Has the end of the session been announced? -/
  stopping : Bool
  /-- The exit code, once the session has ended. -/
  ended : Option Nat

/-- The server before the first message. -/
def Server.start : Server := ⟨[], false, none⟩

/-- Take an event in, and say what there is to say about its document. -/
def Server.take (s : Server) (e : Event) : Server × List Json :=
  let session := s.session.after e
  ({ s with session := session }, [(session.publish e.uri).toJson])

/-- Take a message in, and give the messages that answer it. Edits start from the text of the open
document. An end that was not announced is a failure. -/
def Server.handle (s : Server) : Message → Server × List Json
  | .introduce id => (s, [reply id introduction])
  | .shutdown id => ({ s with stopping := true }, [reply id .null])
  | .exit => ({ s with ended := some (if s.stopping then 0 else 1) }, [])
  | .event e => s.take e
  | .edit uri version edits =>
    let text := ((s.session.find? uri).map Document.text).getD ""
    s.take (.change uri version (Edit.texts edits text))
  | .question id => (s, [refusal id])
  | .remark => (s, [])

end Editor

end WorkflowLint
