import WorkflowLint.Command.Lint
import WorkflowLint.Example

/-!
# The program

What the program does for each request, as a function of the files that there are.

## Main definitions

* `WorkflowLint.Command.Environment` — what the program says about its surroundings.
* `WorkflowLint.Command.perform` — carry out a request.
* `WorkflowLint.Command.run` — read the command line and carry out what it asks for.
-/

set_option autoImplicit false

namespace WorkflowLint.Command

/-- What the program says about its surroundings. -/
structure Environment where
  /-- What runs the program. -/
  runtime : String
  /-- The operating system. -/
  platform : String
  /-- The version of the server framework. -/
  serverFramework : String
  /-- The version of the protocol types. -/
  protocolTypes : String
  deriving DecidableEq, Repr, Inhabited

/-- The version of the program. -/
def version : String := "0.1.0"

/-- What is shown as the version. -/
def versionText (e : Environment) : String :=
  String.join <| List.map (· ++ "\n")
    ["julietscript version " ++ version, "", "Environment:", "  Python:        " ++ e.runtime,
      "  Platform:      " ++ e.platform, "", "Features:", "  LSP Server:    ✓ Available"]

/-- What is shown about the server. -/
def serverText (e : Environment) : String :=
  String.join <| List.map (· ++ "\n")
    ["pygls:        " ++ e.serverFramework, "lsprotocol:   " ++ e.protocolTypes, "",
      "All LSP dependencies installed."]

/-- How the program is used. -/
def usageText : String :=
  String.join <| List.map (· ++ "\n")
    ["Usage: julietscript [OPTIONS] COMMAND [ARGS]...", "",
      "JulietScript lint tooling", "",
      "Commands:",
      "  lint     Check JulietScript files for errors and warnings",
      "  example  Print an annotated example script",
      "  lsp      Run the language server for editors"]

/-- Carry out a request. Files alone are not enough to serve an editor, so that a request to serve
fails where there is nobody to talk to. -/
def perform (e : Environment) (t : FileTree) : Request → Outcome
  | .help => .exit 0 usageText ""
  | .refuse => .exit 2 "" usageText
  | .version => .exit 0 (versionText e) ""
  | .showExample => .exit 0 exampleScript ""
  | .lint options => runLint t options
  | .serve _ => .exit 2 "" ""
  | .serverCheck => .exit 0 (serverText e) ""

/-- Read the command line and carry out what it asks for. -/
def run (e : Environment) (t : FileTree) (arguments : List String) : Outcome :=
  perform e t (.ofArguments arguments)

end WorkflowLint.Command
