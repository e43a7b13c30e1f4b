import AnchorScript.Number.Layout

namespace AnchorScript

/-!
# Modifier values

The value of a modifier is a flag, a number or a text. Flags and numbers can
only be looked up as what they are; as text every value can be looked up, and
then reads as it is written.
-/

/-- The value of one modifier. -/
inductive Value where
  | flag : Bool → Value
  | number : Binary64 → Value
  | text : String → Value
deriving Repr, DecidableEq

namespace Value

/-- Magnitudes from a millionth to below ten to the power 21 have no exponent. -/
def isPlainNumber (number : Binary64) : Bool :=
  Binary64.rankOfDecimal ⟨1, -6⟩ ≤ number.rank &&
    number.rank < Binary64.rankOfDecimal ⟨1, 21⟩

/-- How numbers are written as values: a zero has no sign, and a power of ten always has one. -/
def numberLayout : NumberLayout where
  isPositional := isPlainNumber
  signedZero := false
  notANumber := "NaN"
  infinity := "Infinity"

/-- The text of a value; a text is its own. -/
def render : Value → String
  | .flag true => "true"
  | .flag false => "false"
  | .number binary => String.ofList (numberLayout.text binary)
  | .text written => written

/-- The flag that a value is. -/
def flag? : Value → Option Bool
  | .flag truth => some truth
  | _ => none

/-- The number that a value is. -/
def number? : Value → Option Binary64
  | .number binary => some binary
  | _ => none

/-- The text that a value is; no other value is rendered for it. -/
def text? : Value → Option String
  | .text written => some written
  | _ => none

/-- Equal values, where numbers are compared numerically. -/
def agrees : Value → Value → Bool
  | .flag left, .flag right => left = right
  | .number left, .number right => left.agrees right
  | .text left, .text right => left = right
  | _, _ => false

end Value

end AnchorScript
