import WorkflowLint.Command.Options

/-!
# What the command line asks for

The program has the commands `lint`, `example` and `lsp`, the last of which has commands of its own.

## Main definitions

* `WorkflowLint.Command.Request` — what the program is asked to do.
* `WorkflowLint.Command.Request.ofArguments` — read the command line.
-/

set_option autoImplicit false

namespace WorkflowLint.Command

/-- The options of `lint`. -/
structure LintOptions where
  /-- The patterns, in the order given. -/
  globs : List String
  /-- The last root given. -/
  root : Option String
  /-- The name of the last form of report given. -/
  format : Option String
  /-- The last manifest given. -/
  manifest : Option String
  /-- Is the run to be logged? -/
  verbose : Bool
  deriving DecidableEq, Repr, Inhabited

/-- What the program is asked to do. -/
inductive Request where
  /-- Explain the usage. -/
  | help
  /-- Refuse arguments that make no sense. -/
  | refuse
  /-- Show the version. -/
  | version
  /-- Print the example script. -/
  | showExample
  /-- Lint files. -/
  | lint (options : LintOptions)
  /-- Serve an editor. -/
  | serve (overNetwork : Bool)
  /-- Show what the server rests on. -/
  | serverCheck
  deriving DecidableEq, Repr, Inhabited

namespace Request

/-- What an option of the program, or of a command without options of its own, is for. -/
inductive CommonOption where
  | help
  | version
  deriving DecidableEq, Repr

/-- What an option of `lint` is for. -/
inductive LintOption where
  | glob
  | root
  | format
  | manifest
  | verbose
  | help
  deriving DecidableEq, Repr

/-- What an option of `lsp run` is for. -/
inductive ServeOption where
  | tcp
  | port
  | help
  deriving DecidableEq, Repr

/-- The help option that every command has. -/
def helpSpec {κ : Type} (key : κ) : OptionSpec κ := ⟨key, "--help", none, false⟩

/-- The options of the program itself. -/
def programSpecs : List (OptionSpec CommonOption) :=
  [⟨.version, "--version", some 'V', false⟩, helpSpec .help]

/-- The options of commands that have no other option than help. -/
def plainSpecs : List (OptionSpec CommonOption) := [helpSpec .help]

/-- The options of `lint`. -/
def lintSpecs : List (OptionSpec LintOption) :=
  [⟨.glob, "--glob", some 'g', true⟩, ⟨.root, "--root", some 'r', true⟩,
    ⟨.format, "--format", some 'f', true⟩, ⟨.manifest, "--manifest", some 'm', true⟩,
    ⟨.verbose, "--verbose", none, false⟩, helpSpec .help]

/-- The options of `lsp run`. -/
def serveSpecs : List (OptionSpec ServeOption) :=
  [⟨.tcp, "--tcp", none, false⟩, ⟨.port, "--port", none, true⟩, helpSpec .help]

/-- The values given for an option, in order. -/
def valuesOf {κ : Type} [BEq κ] (given : List (κ × String)) (key : κ) : List String :=
  (given.filter fun g => g.1 == key).map Prod.snd

/-- The request of a command that takes options only. Help is given even if there are operands. -/
def ofOptions {κ : Type} [BEq κ] (specs : List (OptionSpec κ)) (help : κ)
    (f : List (κ × String) → Request) (arguments : List String) : Request :=
  match Arguments.read? specs true arguments with
  | none => .refuse
  | some a =>
    if a.given.any fun g => g.1 == help then .help
    else if !a.operands.isEmpty then .refuse
    else f a.given

/-- The request of `lint`. -/
def ofLint : List String → Request :=
  ofOptions lintSpecs .help fun given =>
    .lint
      { globs := valuesOf given .glob
        root := (valuesOf given .root).getLast?
        format := (valuesOf given .format).getLast?
        manifest := (valuesOf given .manifest).getLast?
        verbose := !(valuesOf given .verbose).isEmpty }

/-- The request of a command without options. -/
def ofPlain (r : Request) : List String → Request := ofOptions plainSpecs .help fun _ => r

/-- The request of `lsp run`. The port is only looked at for being a whole number. -/
def ofServe : List String → Request :=
  ofOptions serveSpecs .help fun given =>
    match (valuesOf given .port).getLast? with
    | some port => if isWholeNumber port then serving given else .refuse
    | none => serving given
where
  /-- Serve over the network, or over the standard streams. -/
  serving (given : List (ServeOption × String)) : Request :=
    .serve (!(valuesOf given .tcp).isEmpty)

/-- The request made by the options in front of a command: the first of them is carried out. -/
def ofGiven (given : List (CommonOption × String)) : Option Request :=
  given.head?.map fun g =>
    match g.1 with
    | .version => .version
    | .help => .help

/-- The request of a command that has commands of its own. A word that is none of them is refused; but
two hyphens do not keep an option from being one where a command is expected. -/
def ofGroup (specs : List (OptionSpec CommonOption))
    (command : String → Option (List String → Request)) (arguments : List String) : Request :=
  match Arguments.read? specs false arguments with
  | none => .refuse
  | some a =>
    match ofGiven a.given, a.operands with
    | some r, _ => r
    | none, [] => .refuse
    | none, word :: rest =>
      match command word with
      | some f => f rest
      | none =>
        ((Arguments.read? specs false (word :: rest)).bind fun a => ofGiven a.given).getD .refuse

/-- The request of `lsp`. -/
def ofServer : List String → Request :=
  ofGroup plainSpecs fun
    | "run" => some ofServe
    | "check" => some (ofPlain .serverCheck)
    | _ => none

/-- Read the command line. -/
def ofArguments : List String → Request :=
  ofGroup programSpecs fun
    | "lint" => some ofLint
    | "example" => some (ofPlain .showExample)
    | "lsp" => some ofServer
    | _ => none

end Request

end WorkflowLint.Command
