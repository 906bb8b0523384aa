import WorkflowLint.Decimal.Basic

/-!
# Values of a TOML document

## Main definitions

* `WorkflowLint.Toml.Value` — a value.
* `WorkflowLint.Toml.Date`, `WorkflowLint.Toml.Time` — the parts of dates and times.
-/

set_option autoImplicit false

namespace WorkflowLint.Toml

/-- A day of the calendar. -/
structure Date where
  year : Nat
  month : Nat
  day : Nat
  deriving DecidableEq, Repr, Inhabited

/-- The number of days of a month, by the rules of the Gregorian calendar. -/
def daysInMonth (year month : Nat) : Nat :=
  if month = 2 then
    if year % 4 = 0 ∧ (year % 100 ≠ 0 ∨ year % 400 = 0) then 29 else 28
  else if [4, 6, 9, 11].contains month then 30
  else 31

/-- Is there such a day? There is no year zero. -/
def Date.exists (d : Date) : Bool :=
  decide (1 ≤ d.year) && decide (d.day ≤ daysInMonth d.year d.month)

/-- A time of the day. -/
structure Time where
  hour : Nat
  minute : Nat
  second : Nat
  microsecond : Nat
  deriving DecidableEq, Repr, Inhabited

/-- A number with a fraction or an exponent. -/
inductive Real where
  /-- A decimal and its sign. -/
  | finite (negative : Bool) (magnitude : Decimal)
  | infinite (negative : Bool)
  | notANumber
  deriving DecidableEq, Repr, Inhabited

/-- A value of a document. -/
inductive Value where
  | string (s : String)
  | integer (n : Int)
  | real (x : Real)
  | boolean (b : Bool)
  | date (d : Date)
  | time (t : Time)
  /-- A date and a time, and the offset from universal time in minutes if there is one. -/
  | dateTime (d : Date) (t : Time) (offset : Option Int)
  | array (items : List Value)
  /-- The entries of a table, in the order in which they were made. -/
  | table (entries : List (String × Value))
  deriving Inhabited

namespace Value

/-- The text of a string. -/
def string? : Value → Option String
  | string s => some s
  | _ => none

/-- The texts of an array of strings. -/
def strings? : Value → Option (List String)
  | array items => items.mapM string?
  | _ => none

/-- The entries of a table. -/
def table? : Value → Option (List (String × Value))
  | table entries => some entries
  | _ => none

end Value

end WorkflowLint.Toml
