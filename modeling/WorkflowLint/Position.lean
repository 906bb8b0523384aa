/-!
# Positions and ranges in a script

Positions are zero-based pairs of a line and a character. Characters are counted in UTF-16 code
units, which is what editors count: a scalar above `U+FFFF` takes two of them. Lines are ended by
a line feed only, so a carriage return is an ordinary character of its line.

## Main definitions

* `WorkflowLint.Position`, `WorkflowLint.Position.le` — a position and the reading order.
* `WorkflowLint.Position.advance`, `WorkflowLint.Position.after` — where a character or a text ends.
* `WorkflowLint.Range` — a half-open stretch of a script.
-/

set_option autoImplicit false

namespace WorkflowLint

/-- A zero-based place in a script. The coordinates are integers because positions may also be
supplied by a caller, who is not bound to any text. -/
structure Position where
  /-- The number of line feeds before this place. -/
  line : Int
  /-- The number of UTF-16 code units since the last line feed. -/
  character : Int
  deriving DecidableEq, Repr, Inhabited

/-- The stretch of a script from `start` up to, but not including, `stop`. -/
structure Range where
  /-- The first place of the stretch. -/
  start : Position
  /-- The place just behind the stretch. -/
  stop : Position
  deriving DecidableEq, Repr, Inhabited

namespace Position

/-- The place before the first character of a script. -/
def origin : Position := ⟨0, 0⟩

/-- The reading order: by line, and by character within a line. -/
def le (p q : Position) : Bool :=
  decide (p.line < q.line) || (decide (p.line = q.line) && decide (p.character ≤ q.character))

/-- The number of UTF-16 code units of a scalar: two above `U+FFFF`, one otherwise. -/
def units (c : Char) : Nat :=
  if c.toNat > 0xFFFF then 2 else 1

/-- The place just behind `c`, when `c` stands at `p`. -/
def advance (p : Position) (c : Char) : Position :=
  if c = '\n' then ⟨p.line + 1, 0⟩ else ⟨p.line, p.character + units c⟩

/-- The place just behind the text `cs`, when `cs` starts at `p`. -/
def after (p : Position) (cs : List Char) : Position :=
  cs.foldl advance p

@[simp] theorem after_nil (p : Position) : p.after [] = p := rfl

@[simp] theorem after_cons (p : Position) (c : Char) (cs : List Char) :
    p.after (c :: cs) = (p.advance c).after cs := rfl

@[simp] theorem after_append (p : Position) (cs ds : List Char) :
    p.after (cs ++ ds) = (p.after cs).after ds := by
  simp [after]

/-- The text form `line:character`, both counted from zero. -/
def text (p : Position) : String :=
  toString p.line ++ ":" ++ toString p.character

/-- The text form used in reports, `line:character` with both counted from one. -/
def humanText (p : Position) : String :=
  toString (p.line + 1) ++ ":" ++ toString (p.character + 1)

end Position

end WorkflowLint
