import AnchorScript.Number.Rounding

namespace AnchorScript

/-!
# The shortest decimal that reads back

Among the decimals that round to a given magnitude there are some with the
fewest digits, and of those the nearest is chosen; of two equally near ones the
larger. For one digit, two digits and so on, the two decimals next to the
magnitude are tried by rounding them again, so what is chosen reads back because
it was tried. Seventeen digits always suffice. The exact decimal stands after
them, which reads back too, so that the choice is total.
-/

/- Powers are those that natural numbers have by themselves, whatever else is in scope. -/
attribute [local instance (2000)] instPowNat

namespace Binary64

/-- The magnitude of a rank as a decimal, without rounding. -/
def exactDecimal (rank : Nat) : Decimal :=
  ⟨unitsOfRank rank * 5 ^ (1074 : Nat), -1074⟩

/--
Position of the first digit: the magnitude lies below ten to this power and not
below ten to the power before it. The least magnitude has 323 zeros after the
point, so a shift by 340 places leaves whole digits to count.
-/
def leadingPlace (rank : Nat) : Int :=
  ((Nat.toDigits 10
      (unitsOfRank rank * 10 ^ (340 : Nat) / unitsPerOne)).length : Int) - 340

/--
Of the two multiples of `10 ^ exponent` next to the magnitude, the one that
reads back to its rank; if both do, the nearer, and the larger of two equally
near.
-/
def nextOnGrid?
    (rank : Nat)
    (exponent : Int) :
    Option Decimal :=
  let numerator := unitsOfRank rank * 10 ^ (-exponent).toNat
  let denominator := unitsPerOne * 10 ^ exponent.toNat
  let lower : Decimal := ⟨numerator / denominator, exponent⟩
  let upper : Decimal := ⟨numerator / denominator + 1, exponent⟩
  if rankOfDecimal lower = rank then
    if rankOfDecimal upper = rank ∧
        denominator ≤ 2 * (numerator % denominator) then
      some upper
    else
      some lower
  else if rankOfDecimal upper = rank then
    some upper
  else
    none

/-- The shortest decimal that reads back to the magnitude of a rank. -/
def shortestDecimal (rank : Nat) : Decimal :=
  let place := leadingPlace rank
  ((List.range 17).findSome? fun digits =>
    nextOnGrid? rank (place - ((digits + 1 : Nat) : Int))).getD (exactDecimal rank)

end Binary64

end AnchorScript
