/-!
# Blank text

Which characters count as blank when the meaning of a criterion is judged. The set is that of
the Unicode characters which are white space or separate lines, paragraphs or information units.

## Main definitions

* `WorkflowLint.Text.isBlank` — a blank character.
* `WorkflowLint.Text.allBlank` — a text that holds nothing else.
-/

set_option autoImplicit false

namespace WorkflowLint.Text

/-- The blank characters, as inclusive ranges of code points in increasing order. -/
def blankRanges : List (Nat × Nat) :=
  [(0x09, 0x0D), (0x1C, 0x20), (0x85, 0x85), (0xA0, 0xA0), (0x1680, 0x1680), (0x2000, 0x200A),
    (0x2028, 0x2029), (0x202F, 0x202F), (0x205F, 0x205F), (0x3000, 0x3000)]

/-- Is `c` a blank character? -/
def isBlank (c : Char) : Bool :=
  blankRanges.any fun r => decide (r.1 ≤ c.toNat) && decide (c.toNat ≤ r.2)

/-- Does the text hold blank characters only? The empty text does. -/
def allBlank (s : String) : Bool := s.toList.all isBlank

end WorkflowLint.Text
