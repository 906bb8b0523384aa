import WorkflowLint.Decimal.Shortest

/-!
# How numbers with a fraction are written

Numbers are written positionally, with at least one digit behind the point, as long as their first
digit stands for a power of ten from `10 ^ -4` to `10 ^ 15`. Others are written with an exponent
of at least two digits that always has a sign.

## Main definitions

* `WorkflowLint.Decimal.written` — the text of a decimal.
-/

set_option autoImplicit false

namespace WorkflowLint

/-- The powers of ten whose numbers are written positionally. -/
def isPositional (power : Int) : Bool := decide (-4 ≤ power) && decide (power < 16)

/-- A run of zeros. -/
def zeros (n : Nat) : List Char := List.replicate n '0'

/-- The text of an exponent: a sign and at least two digits. -/
def exponentText (power : Int) : List Char :=
  let ds := Nat.toDigits 10 power.natAbs
  (if power < 0 then '-' else '+') :: (zeros (2 - ds.length) ++ ds)

/-- Digits without the zeros at their end. -/
def trimZeros (ds : List Char) : List Char := (ds.reverse.dropWhile (· == '0')).reverse

/-- The text of a decimal. -/
def Decimal.written (x : Decimal) : String :=
  if x.digits = 0 then "0.0"
  else
    let all := Nat.toDigits 10 x.digits
    let ds := trimZeros all
    let point : Int := all.length + x.exponent
    let power := point - 1
    String.ofList <|
      if isPositional power then
        if point ≤ 0 then '0' :: '.' :: (zeros (-point).toNat ++ ds)
        else if ds.length ≤ point.toNat then ds ++ zeros (point.toNat - ds.length) ++ ['.', '0']
        else ds.take point.toNat ++ ['.'] ++ ds.drop point.toNat
      else
        let fraction := if ds.length > 1 then '.' :: ds.drop 1 else []
        ds.take 1 ++ fraction ++ ['e'] ++ exponentText power

end WorkflowLint
