import AnchorScript.Number.Shortest

namespace AnchorScript

/-!
# Numbers as text

A finite number is written with its shortest digits. They stand positionally,
or with one digit before the point and a power of ten. What a format decides
beyond that is collected in a `NumberLayout`.
-/

/-- The decisions of a number format. -/
structure NumberLayout where
  /-- Which finite numbers are written without a power of ten. -/
  isPositional : Binary64 → Bool
  /-- What a whole number that stands positionally ends with. -/
  wholeEnding : List Char := []
  /-- The sign of a power of ten that is not negative. -/
  plusSign : List Char := ['+']
  /-- Whether a negative zero keeps its sign. -/
  signedZero : Bool
  /-- The text of what is not a number. -/
  notANumber : String
  /-- The text of the infinite magnitude. -/
  infinity : String

/-- Digits of a decimal without trailing zeros, and the place of the point before them. -/
structure Digits where
  digits : List Char
  point : Int
deriving Repr, DecidableEq

namespace Digits

/-- The significant digits of a decimal; the point is counted from the first of them. -/
def ofDecimal (decimal : Decimal) : Digits :=
  let all := Nat.toDigits 10 decimal.coefficient
  ⟨(all.reverse.dropWhile (· = '0')).reverse, all.length + decimal.exponent⟩

/--
The digits with the zeros and the point that their place needs, and an ending
where no places follow.
-/
def positional (wholeEnding : List Char) (written : Digits) : List Char :=
  let digits := written.digits
  if written.point ≤ 0 then
    '0' :: '.' ::
      (List.replicate (-written.point).toNat '0' ++ digits)
  else if digits.length ≤ written.point.toNat then
    digits ++ List.replicate (written.point.toNat - digits.length) '0' ++
      wholeEnding
  else
    digits.take written.point.toNat ++
      '.' :: digits.drop written.point.toNat

/-- One digit before the point, and the power of ten with its sign. -/
def scientific (plusSign : List Char) (written : Digits) : List Char :=
  let power := written.point - 1
  let mantissa :=
    match written.digits with
    | [] => []
    | [digit] => [digit]
    | digit :: places => digit :: '.' :: places
  let sign := if power < 0 then ['-'] else plusSign
  mantissa ++ 'e' :: (sign ++ Nat.toDigits 10 power.natAbs)

end Digits

namespace NumberLayout

/-- The text of a finite magnitude above zero. -/
def magnitudeText
    (layout : NumberLayout)
    (number : Binary64) :
    List Char :=
  let written := Digits.ofDecimal (Binary64.shortestDecimal number.rank)
  if layout.isPositional number then written.positional layout.wholeEnding
  else written.scientific layout.plusSign

/-- A minus sign in front of what is negative. -/
def signed
    (negative : Bool)
    (text : List Char) :
    List Char :=
  if negative then '-' :: text else text

/-- The text of a number. -/
def text
    (layout : NumberLayout)
    (number : Binary64) :
    List Char :=
  if number.isNaN then
    layout.notANumber.toList
  else if number.isInfinite then
    signed number.negative layout.infinity.toList
  else if number.isZero then
    signed (number.negative && layout.signedZero) ('0' :: layout.wholeEnding)
  else
    signed number.negative (layout.magnitudeText number)

end NumberLayout

end AnchorScript
