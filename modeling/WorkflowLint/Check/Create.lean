import WorkflowLint.Check.Basic

/-!
# The `create` statement

An artifact, taken from files or made from a prompt, with the artifacts it uses and the policies,
cadence and rubric attached to it:

    create PatchSet from juliet "Produce a patch series."
    using [SourceBrief]
    with {
      preflight = PreflightChecklist;
      cadence = ShipLoop;
    };

The artifact is defined when its statement ends, so it is not visible in its own `using` list.
-/

set_option autoImplicit false

namespace WorkflowLint.Check

/-- The name space in which the value of an attachment key is looked up, for the keys there are. -/
def attachmentKind? : String → Option SymbolKind
  | "preflight" => some .policy
  | "failureTriage" => some .policy
  | "cadence" => some .cadence
  | "rubric" => some .rubric
  | _ => none

/-- One path of a list of source files. Carries the paths met so far, the latest first. -/
def sourceFile (seen : List String) : Check (List String) := do
  match ← expect [.string] (.expected "quoted file path in source files list") with
  | some path =>
    if seen.contains path.text then
      report (.duplicateSourcePath path.text) path
    return path.text :: seen
  | none => return seen

/-- A list of source files, behind its keyword. A list without any path is reported on its opening
bracket, or on the token passed last if there is no bracket. -/
def sourceFiles : Check Unit := do
  let bracket ← expect [.mark .openBracket] (.expected "'[' after 'julietArtifactSourceFiles'")
  let seen ← listed sourceFile []
  expectMark .closeBracket "']' after source files list"
  if seen.isEmpty then
    report (.expected "at least one file path in julietArtifactSourceFiles list")
      (bracket.getD (← get).previous)

/-- What an artifact is made from, behind `from`. -/
def origin : Check Unit := do
  if ← acceptWord "juliet" then
    discard (expectLiteral "prompt string after 'from juliet'")
  else if ← acceptWord "julietArtifactSourceFiles" then
    sourceFiles
  else
    reportCurrent (.expected "'juliet' or 'julietArtifactSourceFiles' after 'from'")

/-- One entry of a `using` list. -/
def dependency : Check Unit := do
  if let some name ← expectName "artifact name in 'using' list" then
    resolve .artifact .usingList name

/-- A `using` list, behind its keyword. -/
def dependencies : Check Unit := do
  expectMark .openBracket "'[' after 'using'"
  listed (fun _ => dependency) ()
  expectMark .closeBracket "']' after using list"

/-- One attachment. Carries the keys met so far, the latest first. -/
def attachment (seen : List String) : Check (List String) := do
  let some key ← expectName "attachment key in create with-block"
    | recoverInBlock
      return seen
  if seen.contains key.text then
    report (.duplicateAttachment key.text) key
  expectMark .equals "'=' after create attachment key"
  let reference ← expectName "reference name after '='"
  expectMark .semicolon "';' after create attachment"
  match attachmentKind? key.text, reference with
  | none, _ => report (.unknownAttachmentKey key.text) key
  | some kind, some name => resolve kind (.attachment key.text) name
  | some _, none => pure ()
  return key.text :: seen

/-- The attachments of an artifact. -/
def attachmentItems : List String → Check (List String) := untilClosed attachment

/-- An attachment block, behind `with`. -/
def attachments : Check Unit := do
  expectMark .openBrace "'\x7b' to begin create attachments block"
  discard (attachmentItems [])
  expectMark .closeBrace "'\x7d' to close create attachments block"

/-- A `create` statement, behind its keyword. Without a name the statement is left behind. -/
def create : Check Unit := do
  let some name ← expectName "artifact name after 'create'" | recoverStatement
  expectKeyword "from" "'from' after artifact name"
  origin
  if ← acceptWord "using" then
    dependencies
  if ← acceptWord "with" then
    attachments
  expectMark .semicolon "';' after create statement"
  define .artifact name

end WorkflowLint.Check
