namespace AnchorScript

/-!
# Decimal numbers

A decimal is a natural coefficient and a power of ten. `Numeral.ofText?` reads
the numerals of the language: an optional minus sign, digits, and optionally a
point and more digits. A numeral has no exponent and no plus sign, and only the
ten ASCII digits are digits.
-/

/- Powers are those that natural numbers have by themselves, whatever else is in scope. -/
attribute [local instance (2000)] instPowNat

/-- The non-negative number `coefficient * 10 ^ exponent`. -/
structure Decimal where
  coefficient : Nat
  exponent : Int
deriving Repr, DecidableEq

namespace Decimal

/-- Numerator of the number as a fraction. -/
def numerator (decimal : Decimal) : Nat :=
  decimal.coefficient * 10 ^ decimal.exponent.toNat

/-- Denominator of the number as a fraction. -/
def denominator (decimal : Decimal) : Nat :=
  10 ^ (-decimal.exponent).toNat

/-- The denominator is never zero. -/
theorem denominator_pos (decimal : Decimal) :
    0 < decimal.denominator :=
  Nat.pow_pos (by decide)

end Decimal

/-- A decimal with a sign, which a zero has too. -/
structure Numeral where
  negative : Bool
  magnitude : Decimal
deriving Repr, DecidableEq

namespace Numeral

/-- Digits, or digits with a point and digits after it. -/
def unsigned? (text : List Char) : Option Decimal :=
  let whole := text.takeWhile Char.isDigit
  match text.dropWhile Char.isDigit with
  | [] =>
      if whole = [] then none
      else some ⟨Nat.ofDigitChars 10 whole 0, 0⟩
  | '.' :: places =>
      if whole = [] ∨ places = [] ∨ places.all Char.isDigit = false then
        none
      else
        some ⟨Nat.ofDigitChars 10 (whole ++ places) 0, -(places.length : Int)⟩
  | _ =>
      none

/-- The numeral that a whole text is, if it is one. -/
def ofText? : List Char → Option Numeral
  | '-' :: rest =>
      (unsigned? rest).map fun magnitude => ⟨true, magnitude⟩
  | text =>
      (unsigned? text).map fun magnitude => ⟨false, magnitude⟩

end Numeral

end AnchorScript
