/-!
# Decimal and binary numbers

A decimal is a whole number times a power of ten. A binary is a whole number below `2 ^ 53` times a
power of two, and stands for a number as it is held in double precision. All arithmetic is exact.

## Main definitions

* `WorkflowLint.Decimal`, `WorkflowLint.Binary` — the two kinds of numbers.
* `WorkflowLint.Decimal.nearest?` — the binary that is nearest to a decimal.
-/

set_option autoImplicit false

namespace WorkflowLint

/-- The number `digits * 10 ^ exponent`. -/
structure Decimal where
  /-- The digits, read as a whole number. -/
  digits : Nat
  /-- The power of ten. -/
  exponent : Int
  deriving DecidableEq, Repr, Inhabited

/-- The number `mantissa * 2 ^ exponent`. -/
structure Binary where
  /-- The significant bits, read as a whole number. -/
  mantissa : Nat
  /-- The power of two. -/
  exponent : Int
  deriving DecidableEq, Repr, Inhabited

/-- The fraction `n / d * b ^ e`, as a numerator and a denominator. -/
def scaled (n d b : Nat) (e : Int) : Nat × Nat := (n * Nat.pow b e.toNat, d * Nat.pow b (-e).toNat)

/-- The number of decimal digits of `n`. -/
def digitCount (n : Nat) : Nat := (Nat.toDigits 10 n).length

/-- The whole number nearest to `n / d`; of two that are equally near, the even one. -/
def roundQuotient (n d : Nat) : Nat :=
  let q := n / d
  let twice := 2 * (n % d)
  if twice < d then q else if twice > d then q + 1 else q + q % 2

namespace Binary

/-- Zero. -/
def zero : Binary := ⟨0, -1074⟩

/-- The least power of two of a binary. -/
def leastExponent : Int := -1074

/-- The greatest power of two of a binary. -/
def greatestExponent : Int := 971

/-- The binary as a numerator and a denominator. -/
def fraction (x : Binary) : Nat × Nat := scaled x.mantissa 1 2 x.exponent

end Binary

namespace Decimal

/-- The decimal as a numerator and a denominator. -/
def fraction (x : Decimal) : Nat × Nat := scaled x.digits 1 10 x.exponent

/-- The power of two for which the fraction `n / d` has 53 bits before the point, or the least power
there is. -/
def binaryExponent (n d : Nat) : Int :=
  let e : Int := (n.log2 : Int) - (d.log2 : Int) - 53
  let (n', d') := scaled n d 2 (-e)
  max (if n' / d' ≥ Nat.pow 2 53 then e + 1 else e) Binary.leastExponent

/-- The binary nearest to a decimal, with ties to the even one; nothing if the decimal is beyond all
binaries. -/
def nearest? (x : Decimal) : Option Binary :=
  let magnitude : Int := digitCount x.digits + x.exponent
  if x.digits = 0 ∨ magnitude < -330 then some .zero
  else if magnitude > 310 then none
  else
    let (n, d) := x.fraction
    let e := binaryExponent n d
    let (n', d') := scaled n d 2 (-e)
    let m := roundQuotient n' d'
    let (m, e) := if m = Nat.pow 2 53 then (Nat.pow 2 52, e + 1) else (m, e)
    if e > Binary.greatestExponent then none else some ⟨m, e⟩

end Decimal

end WorkflowLint
