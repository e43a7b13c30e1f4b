import AnchorScript.Number.Binary64
import AnchorScript.Number.Decimal

namespace AnchorScript

/-!
# The nearest binary64 number

Every finite magnitude is a whole number of units of `2 ^ (-1074)`, the least
magnitude above zero. A fraction is rounded by one exact division: with the
step between neighbours in its neighbourhood, `2 ^ shift` units, the quotient
is the significand below it and the remainder decides. A remainder of half a
step goes to the even neighbour. Because ranks count magnitudes, a significand
rounded up into the next power of two needs no care.
-/

/- Powers are those that natural numbers have by themselves, whatever else is in scope. -/
attribute [local instance (2000)] instPowNat

namespace Binary64

/-- Units in the number one. -/
def unitsPerOne : Nat := 2 ^ (1074 : Nat)

/-- A magnitude of the given rank, in units of `2 ^ (-1074)`. -/
def unitsOfRank (rank : Nat) : Nat :=
  if rank < 2 ^ (52 : Nat) then
    rank
  else
    (2 ^ (52 : Nat) + rank % 2 ^ (52 : Nat)) *
      2 ^ (rank / 2 ^ (52 : Nat) - 1)

/--
Rank of the magnitude nearest to a fraction. A tie goes to the even rank, and
what is too large for a finite magnitude has the rank of infinity.
-/
def nearestRank (numerator denominator : Nat) : Nat :=
  let scaled := numerator * unitsPerOne
  let shift := Nat.log2 (scaled / denominator) - 52
  let step := denominator * 2 ^ shift
  let quotient := scaled / step
  let remainder := scaled % step
  let significand :=
    if step < 2 * remainder ∨ (2 * remainder = step ∧ quotient % 2 = 1) then
      quotient + 1
    else
      quotient
  min (shift * 2 ^ (52 : Nat) + significand) infinityRank

/-- Rank of the magnitude nearest to a decimal. -/
def rankOfDecimal (decimal : Decimal) : Nat :=
  nearestRank decimal.numerator decimal.denominator

/-- The number nearest to a numeral, with the numeral's sign. -/
def ofNumeral (numeral : Numeral) : Binary64 :=
  ofRank numeral.negative (rankOfDecimal numeral.magnitude)

end Binary64

end AnchorScript
