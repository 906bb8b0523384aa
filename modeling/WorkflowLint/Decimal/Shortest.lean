import WorkflowLint.Decimal.Basic

/-!
# The shortest decimal that reads back

Of all decimals whose nearest binary is a given one, the one with the fewest digits; among those,
the one nearest to the binary.

## Main definitions

* `WorkflowLint.Binary.readsBack` — does a decimal read back as this binary?
* `WorkflowLint.Binary.shortest` — the shortest such decimal.
-/

set_option autoImplicit false

namespace WorkflowLint.Binary

/-- Is the decimal closer to `x` than to any other binary? The reals that read back as `x` reach half
way to its neighbours, the ends included if the mantissa is even. The neighbour below a power of two
is half as far away as the one above. -/
def readsBack (x : Binary) (d : Decimal) : Bool :=
  let narrow := x.mantissa = Nat.pow 2 52 ∧ x.exponent > leastExponent
  let low := if narrow then 4 * x.mantissa - 1 else 4 * x.mantissa - 2
  let high := 4 * x.mantissa + 2
  let (n, k) := d.fraction
  let (l, l') := scaled low 1 2 (x.exponent - 2)
  let (h, h') := scaled high 1 2 (x.exponent - 2)
  if x.mantissa % 2 = 0 then decide (l * k ≤ n * l') && decide (n * h' ≤ h * k)
  else decide (l * k < n * l') && decide (n * h' < h * k)

/-- The number of digits before the point: `x` lies between `10 ^ (p - 1)` and `10 ^ p`. -/
def pointPosition (x : Binary) : Int :=
  let (n, d) := x.fraction
  let p : Int := (digitCount n : Int) - (digitCount d : Int)
  let (n', d') := scaled n d 10 (-p)
  if n' ≥ d' then p + 1 else p

/-- The decimal with the given number of digits that reads back as `x`, if there is one. Only the two
neighbours of `x` on that grid can do so; the nearer is taken, and of two that are equally near the
even one. -/
def withDigits? (x : Binary) (count : Nat) : Option Decimal :=
  let e := x.pointPosition - count
  let (n, d) := x.fraction
  let (n', d') := scaled n d 10 (-e)
  let below : Decimal := ⟨n' / d', e⟩
  let above : Decimal := ⟨n' / d' + 1, e⟩
  let nearer : Decimal := ⟨roundQuotient n' d', e⟩
  if x.readsBack nearer then some nearer
  else if x.readsBack below then some below
  else if x.readsBack above then some above
  else none

/-- The shortest decimal that reads back as `x`. Seventeen digits always suffice. -/
def shortest (x : Binary) : Decimal :=
  if x.mantissa = 0 then ⟨0, 0⟩
  else ((List.range' 1 17).findSome? x.withDigits?).getD ⟨0, 0⟩

end WorkflowLint.Binary
