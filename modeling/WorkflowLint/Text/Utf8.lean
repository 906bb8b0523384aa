/-!
# Reading bytes as text

UTF-8, read strictly or leniently. The bytes are cut into units, each of which is either a scalar or
a maximal ill-formed stretch: the longest start of a scalar that cannot be completed, or a single
byte that starts none. A strict reader refuses ill-formed units; a lenient one puts `U+FFFD` in the
place of each.

## Main definitions

* `WorkflowLint.Text.Utf8.units` — the units of a byte string.
* `WorkflowLint.Text.Utf8.decode?` — strict reading.
* `WorkflowLint.Text.Utf8.decodeLossy` — lenient reading.
-/

set_option autoImplicit false

namespace WorkflowLint.Text.Utf8

/-- What a lead byte announces. -/
structure Lead where
  /-- The number of bytes that follow. -/
  owed : Nat
  /-- The bits of the scalar that the lead byte carries. -/
  bits : Nat
  /-- The least byte that may come next. -/
  low : Nat
  /-- The greatest byte that may come next. -/
  high : Nat
  deriving DecidableEq, Repr

/-- What the byte `b` announces, if it can start a scalar. The bounds on the next byte rule out
overlong forms, surrogates and numbers beyond the last scalar. -/
def lead? (b : Nat) : Option Lead :=
  if b ≤ 0x7F then some ⟨0, b, 0x80, 0xBF⟩
  else if b < 0xC2 then none
  else if b ≤ 0xDF then some ⟨1, b - 0xC0, 0x80, 0xBF⟩
  else if b = 0xE0 then some ⟨2, 0, 0xA0, 0xBF⟩
  else if b = 0xED then some ⟨2, 0xD, 0x80, 0x9F⟩
  else if b ≤ 0xEF then some ⟨2, b - 0xE0, 0x80, 0xBF⟩
  else if b = 0xF0 then some ⟨3, 0, 0x90, 0xBF⟩
  else if b ≤ 0xF3 then some ⟨3, b - 0xF0, 0x80, 0xBF⟩
  else if b = 0xF4 then some ⟨3, 4, 0x80, 0x8F⟩
  else none

/-- Read the bytes that are owed, the next of which lies between `low` and `high`. Returns the
completed number, or nothing if a byte is missing, and what is left. -/
def scan (low high : Nat) : Nat → Nat → List UInt8 → Option Nat × List UInt8
  | 0, value, bs => (some value, bs)
  | _ + 1, _, [] => (none, [])
  | owed + 1, value, b :: bs =>
    if low ≤ b.toNat ∧ b.toNat ≤ high then scan 0x80 0xBF owed (value * 64 + b.toNat % 64) bs
    else (none, b :: bs)

/-- The unit that starts with `b`, and what is left behind it. -/
def unit (b : UInt8) (bs : List UInt8) : Option Nat × List UInt8 :=
  match lead? b.toNat with
  | some l => scan l.low l.high l.owed l.bits bs
  | none => (none, bs)

theorem length_scan_le (low high owed value : Nat) (bs : List UInt8) :
    (scan low high owed value bs).2.length ≤ bs.length := by
  fun_induction scan low high owed value bs with
  | case1 => simp
  | case2 => simp
  | case3 _ _ _ _ _ _ _ ih => exact Nat.le_succ_of_le ih
  | case4 => simp

theorem length_unit_le (b : UInt8) (bs : List UInt8) : (unit b bs).2.length ≤ bs.length := by
  unfold unit
  split
  · exact length_scan_le ..
  · simp

/-- The units of a byte string; an ill-formed stretch is `none`. -/
def units : List UInt8 → List (Option Char)
  | [] => []
  | b :: bs =>
    let u := unit b bs
    u.1.map Char.ofNat :: units u.2
termination_by bs => bs.length
decreasing_by exact Nat.lt_succ_of_le (length_unit_le b bs)

/-- The text that the bytes stand for, unless they are ill-formed. -/
def decode? (bs : List UInt8) : Option String :=
  ((units bs).mapM id).map String.ofList

/-- The text that the bytes stand for, with `U+FFFD` for each ill-formed stretch. -/
def decodeLossy (bs : List UInt8) : String :=
  String.ofList ((units bs).map fun u => u.getD '\uFFFD')

end WorkflowLint.Text.Utf8
