import WorkflowLint.Text.Blank

/-!
# Options on the command line

An option has a long name or a short one of a single letter, or both. A value follows its option as the
next argument, behind an equals sign, or right behind a short name. Short names may be run
together. Two hyphens end the options.

## Main definitions

* `WorkflowLint.Command.OptionSpec` — an option that a command knows.
* `WorkflowLint.Command.Arguments.read?` — the options and operands among arguments.
-/

set_option autoImplicit false

namespace WorkflowLint.Command

/-- An option that a command knows. -/
structure OptionSpec (κ : Type) where
  /-- What the option is for. -/
  key : κ
  /-- The long name, with its hyphens. -/
  long : String
  /-- The letter of the short name. -/
  short : Option Char
  /-- Does a value belong to the option? -/
  takesValue : Bool

/-- Arguments, sorted into options and operands. -/
structure Arguments (κ : Type) where
  /-- The options that were given, with their values, in order. -/
  given : List (κ × String)
  /-- The other arguments, in order. -/
  operands : List String

namespace Arguments

variable {κ : Type}

/-- What one argument says: complete options, and possibly one whose value is the next argument. -/
structure Reading (κ : Type) where
  /-- Options that are complete. -/
  complete : List (κ × String)
  /-- An option that waits for its value. -/
  waiting : Option κ

/-- Read a run of short names. -/
def readShort? (specs : List (OptionSpec κ)) : List Char → Option (Reading κ)
  | [] => some ⟨[], none⟩
  | c :: cs => do
    let spec ← specs.find? fun s => s.short == some c
    if spec.takesValue then
      if cs.isEmpty then return ⟨[], some spec.key⟩
      return ⟨[(spec.key, String.ofList cs)], none⟩
    let reading ← readShort? specs cs
    return ⟨(spec.key, "") :: reading.complete, reading.waiting⟩

/-- Read an argument that starts with a hyphen. A long name is tried first; behind two hyphens there
can be nothing else. -/
def readOption? (specs : List (OptionSpec κ)) (argument : String) : Option (Reading κ) :=
  let cs := argument.toList
  let name := String.ofList (cs.takeWhile (· != '='))
  let value := (cs.dropWhile (· != '=')).tail?
  match specs.find? fun s => s.long == name with
  | some spec =>
    match spec.takesValue, value with
    | true, some v => some ⟨[(spec.key, String.ofList v)], none⟩
    | true, none => some ⟨[], some spec.key⟩
    | false, some _ => none
    | false, none => some ⟨[(spec.key, "")], none⟩
  | none => if cs.take 2 == ['-', '-'] then none else readShort? specs (cs.drop 1)

/-- Is this argument an option? A hyphen on its own is none. -/
def isOption (argument : String) : Bool :=
  argument.toList.take 1 == ['-'] && decide (argument.toList.length > 1)

/-- More options in front. -/
def prepend (given : List (κ × String)) (a : Arguments κ) : Arguments κ :=
  { a with given := given ++ a.given }

/-- Sort arguments into options and operands. If `mixed` is not set, everything from the first operand
on is left as it is. Fails on unknown options, and on missing or needless values. -/
def read? (specs : List (OptionSpec κ)) (mixed : Bool) : List String → Option (Arguments κ)
  | [] => some ⟨[], []⟩
  | argument :: rest =>
    if argument == "--" then some ⟨[], rest⟩
    else if isOption argument then
      match readOption? specs argument, rest with
      | none, _ => none
      | some ⟨complete, none⟩, rest => (read? specs mixed rest).map (prepend complete)
      | some ⟨_, some _⟩, [] => none
      | some ⟨complete, some key⟩, value :: rest =>
        (read? specs mixed rest).map (prepend (complete ++ [(key, value)]))
    else if mixed then
      (read? specs mixed rest).map fun a => { a with operands := argument :: a.operands }
    else some ⟨[], argument :: rest⟩

end Arguments

/-- The most digits that a number given as a value may have. -/
def digitLimit : Nat := 4300

/-- May `c` stand around a number? The blank characters that separate units of information may not. -/
def isPadding (c : Char) : Bool := Text.isBlank c && !(0x1C ≤ c.toNat && c.toNat ≤ 0x1F)

/-- Are these digits, with single underscores between them at most? `afterDigit` says whether a
digit stands right before. -/
def areDigits (afterDigit : Bool) : List Char → Bool
  | [] => afterDigit
  | c :: cs =>
    if c.isDigit then areDigits true cs else c == '_' && afterDigit && areDigits false cs

/-- Is the text a whole number? Blank space around it, a sign, and single underscores between digits are
allowed; the number of digits is limited. -/
def isWholeNumber (s : String) : Bool :=
  let trimmed := ((s.toList.dropWhile isPadding).reverse.dropWhile isPadding).reverse
  let unsigned := match trimmed with
    | '+' :: cs => cs
    | '-' :: cs => cs
    | cs => cs
  areDigits false unsigned && decide (unsigned.countP Char.isDigit ≤ digitLimit)

end WorkflowLint.Command
