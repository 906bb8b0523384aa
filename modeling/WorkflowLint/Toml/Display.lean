import WorkflowLint.Decimal.Notation
import WorkflowLint.Text.Quoted
import WorkflowLint.Toml.Value

/-!
# How a value is shown in a message

## Main definitions

* `WorkflowLint.Toml.Value.display` — the text of a value.
* `WorkflowLint.Toml.Value.isShowable` — is there such a text?
* `WorkflowLint.Toml.Value.depth` — how deep a value is nested.
-/

set_option autoImplicit false

namespace WorkflowLint.Toml

/-- Texts with a comma and a blank between them. -/
def commaSeparated (texts : List String) : String := ", ".intercalate texts

/-- A name and its arguments in parentheses. -/
def callText (name : String) (arguments : List String) : String :=
  name ++ "(" ++ commaSeparated arguments ++ ")"

/-- The text of a number with a fraction: the shortest digits that read back as the same number in
double precision. -/
def Real.display : Real → String
  | finite negative magnitude =>
    let text := match magnitude.nearest? with
      | some x => x.shortest.written
      | none => "inf"
    if negative then "-" ++ text else text
  | infinite negative => if negative then "-inf" else "inf"
  | notANumber => "nan"

/-- The parts of a date. -/
def Date.parts (d : Date) : List Nat := [d.year, d.month, d.day]

/-- The parts of a time. Seconds and microseconds are left out if they and what is behind them are
zero. -/
def Time.parts (t : Time) : List Nat :=
  [t.hour, t.minute] ++
    if t.microsecond ≠ 0 then [t.second, t.microsecond]
    else if t.second ≠ 0 then [t.second]
    else []

/-- The text of an offset from universal time, given in minutes. A negative offset is a day back and
so many seconds forward. -/
def offsetText (minutes : Int) : String :=
  if minutes = 0 then "datetime.timezone.utc"
  else
    let delta :=
      if minutes < 0 then ["days=-1", "seconds=" ++ toString (86400 + minutes * 60)]
      else ["seconds=" ++ toString (minutes * 60)]
    callText "datetime.timezone" [callText "datetime.timedelta" delta]

mutual

/-- The text of a value. -/
def Value.display : Value → String
  | .string s => Text.quoted s
  | .integer n => toString n
  | .real x => x.display
  | .boolean b => if b then "True" else "False"
  | .date d => callText "datetime.date" (d.parts.map toString)
  | .time t => callText "datetime.time" (t.parts.map toString)
  | .dateTime d t offset =>
    callText "datetime.datetime" ((d.parts ++ t.parts).map toString ++
      (offset.map fun o => "tzinfo=" ++ offsetText o).toList)
  | .array items => "[" ++ commaSeparated (displayItems items) ++ "]"
  | .table entries => "\x7b" ++ commaSeparated (displayEntries entries) ++ "\x7d"

/-- The texts of the items of an array. -/
def displayItems : List Value → List String
  | [] => []
  | v :: vs => v.display :: displayItems vs

/-- The texts of the entries of a table. -/
def displayEntries : List (String × Value) → List String
  | [] => []
  | (key, v) :: es => (Text.quoted key ++ ": " ++ v.display) :: displayEntries es

end

/-- The number of digits that an integer may have in a message. Integers that are written in another
base than ten may have more, and are read nevertheless. -/
def digitLimit : Nat := 4300

mutual

/-- Do all integers in a value have few enough digits to be shown? -/
def Value.isShowable : Value → Bool
  | .integer n => n.natAbs < 10 ^ digitLimit
  | .array items => areShowable items
  | .table entries => entriesAreShowable entries
  | _ => true

/-- Can all items of an array be shown? -/
def areShowable : List Value → Bool
  | [] => true
  | v :: vs => v.isShowable && areShowable vs

/-- Can all entries of a table be shown? -/
def entriesAreShowable : List (String × Value) → Bool
  | [] => true
  | (_, v) :: es => v.isShowable && entriesAreShowable es

end

mutual

/-- The number of arrays and tables that are nested in each other in a value. -/
def Value.depth : Value → Nat
  | .array items => itemsDepth items + 1
  | .table entries => entriesDepth entries + 1
  | _ => 0

/-- The depth of the deepest item of an array. -/
def itemsDepth : List Value → Nat
  | [] => 0
  | v :: vs => max v.depth (itemsDepth vs)

/-- The depth of the deepest entry of a table. -/
def entriesDepth : List (String × Value) → Nat
  | [] => 0
  | (_, v) :: es => max v.depth (entriesDepth es)

end

end WorkflowLint.Toml
