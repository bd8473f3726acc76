import PlanService.Number.Binary64

/-! # Decimal notation read as a double

What a number such as `12.5e-3` stands for.  Its digits give an integer significand that
fits into 64 bits and a power of ten; the significand, as a double, is then multiplied or
divided by the double nearest to that power.  This rounds up to three times, so the
result may differ from the nearest double in its last bit: the rule is part of how the
service reads numbers.
-/

namespace PlanService.Decimal

/-- The largest significand that is kept exactly. -/
def significandLimit : Nat := Nat.pow 2 64 - 1

/-- The digits of a decimal numeral as far as they count: `significand * 10 ^ exponent`. -/
structure Scaled where
  significand : Nat
  exponent : Int
  deriving Repr, DecidableEq

/-- Adds digits before the point while the significand still fits; each digit from the
first that does not only raises the exponent. -/
def wholeDigits : List Nat → Nat → Scaled
  | [], significand => ⟨significand, 0⟩
  | d :: ds, significand =>
    if significand * 10 + d ≤ significandLimit then wholeDigits ds (significand * 10 + d)
    else ⟨significand, (d :: ds).length⟩

/-- Adds digits after the point while the significand still fits; the first that does not,
and all after it, are dropped. -/
def fractionDigits : List Nat → Scaled → Scaled
  | [], s => s
  | d :: ds, s =>
    if s.significand * 10 + d ≤ significandLimit then
      fractionDigits ds ⟨s.significand * 10 + d, s.exponent - 1⟩
    else s

/-- The double nearest to `10 ^ n`, for `n ≤ 308`. -/
def powerOfTen (n : Nat) : Magnitude :=
  (Magnitude.ofNat (Nat.pow 10 n)).getD .zero

def exponentLimit : Nat := 308

/-- The double that a scaled significand is read as; none when it is too large.  A very
small one is first divided by `10 ^ 308`; what is still out of reach then is zero. -/
def Scaled.toMagnitude (s : Scaled) : Option Magnitude :=
  match Magnitude.ofNat s.significand with
  | none => none
  | some x =>
    if s.exponent.natAbs ≤ exponentLimit then
      if 0 ≤ s.exponent then x.mul (powerOfTen s.exponent.natAbs)
      else x.div (powerOfTen s.exponent.natAbs)
    else if x.isZero then some .zero
    else if 0 ≤ s.exponent then none
    else
      let rest := s.exponent + exponentLimit
      if rest.natAbs ≤ exponentLimit then
        (x.div (powerOfTen exponentLimit)).bind (·.div (powerOfTen rest.natAbs))
      else some .zero

end PlanService.Decimal
