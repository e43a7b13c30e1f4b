import AnchorScript.Json.Basic
import AnchorScript.Number.Rounding

namespace AnchorScript

/-!
# Numerals of JSON

A numeral has an optional minus sign, digits without a needless zero in front,
and optionally places after a point and a power of ten. Whole numbers that fit
64 bits, with a sign or without, stay whole. All others stand for the nearest
number, and those that leave the finite range are refused.
-/

/-- A numeral in its parts; `places` and `power` are absent when not written. -/
structure JsonNumeral where
  negative : Bool
  whole : List Char
  places : Option (List Char)
  power : Option Int
deriving Repr, DecidableEq

namespace JsonNumeral

/-- The exponent after an `e`: an optional sign and digits. -/
def power? (text : List Char) : Option Int :=
  let magnitude? (digits : List Char) : Option Nat :=
    if digits = [] ∨ digits.all Char.isDigit = false then none
    else some (Nat.ofDigitChars 10 digits 0)
  match text with
  | '+' :: digits => (magnitude? digits).map Int.ofNat
  | '-' :: digits => (magnitude? digits).map fun magnitude => -(magnitude : Int)
  | digits => (magnitude? digits).map Int.ofNat

/-- Whether a character starts the power of ten. -/
def startsPower (character : Char) : Bool :=
  character = 'e' || character = 'E'

/-- The parts of an unsigned numeral. -/
def unsigned? (negative : Bool) (text : List Char) : Option JsonNumeral :=
  let mantissa := text.takeWhile fun character => !startsPower character
  let tail := text.dropWhile fun character => !startsPower character
  let whole := mantissa.takeWhile Char.isDigit
  let afterWhole := mantissa.dropWhile Char.isDigit
  let places? : Option (Option (List Char)) :=
    match afterWhole with
    | [] => some none
    | '.' :: places =>
        if places = [] ∨ places.all Char.isDigit = false then none
        else some (some places)
    | _ => none
  let power? : Option (Option Int) :=
    match tail with
    | [] => some none
    | _ :: digits => (power? digits).map some
  if whole = [] ∨ (whole.head? = some '0' ∧ whole ≠ ['0']) then none
  else do return ⟨negative, whole, ← places?, ← power?⟩

/-- The numeral that a whole text is, if it is one. -/
def ofText? : List Char → Option JsonNumeral
  | '-' :: rest => unsigned? true rest
  | text => unsigned? false text

/-- The digits of a numeral without zeros in front. -/
def significant (numeral : JsonNumeral) : List Char :=
  (numeral.whole ++ numeral.places.getD []).dropWhile (· = '0')

/-- The power of ten that the last digit of a numeral counts. -/
def lastPower (numeral : JsonNumeral) : Int :=
  numeral.power.getD 0 - (numeral.places.getD []).length

/--
Rank of the finite magnitude nearest to a numeral. The magnitude lies below ten
to the power that the first digit reaches; beyond the power 309 nothing is
finite, and below the power -323 everything is rounded to zero, so that no
power outside is computed.
-/
def rank? (numeral : JsonNumeral) : Option Nat :=
  let digits := numeral.significant
  let reached := digits.length + numeral.lastPower
  if digits = [] ∨ reached < -323 then some 0
  else if 309 < reached then none
  else
    let rank :=
      Binary64.rankOfDecimal ⟨Nat.ofDigitChars 10 digits 0, numeral.lastPower⟩
    if rank < Binary64.infinityRank then some rank else none

/-- The number nearest to a numeral, if it is finite. -/
def number? (numeral : JsonNumeral) : Option Binary64 :=
  numeral.rank?.map (Binary64.ofRank numeral.negative)

/-- The whole number that a numeral writes; a zero with a sign is not whole. -/
def whole? (numeral : JsonNumeral) : Option Int :=
  let magnitude : Int := Nat.ofDigitChars 10 numeral.whole 0
  if numeral.places.isSome || numeral.power.isSome then none
  else if numeral.negative then
    if magnitude = 0 then none else some (-magnitude)
  else some magnitude

/-- Whether 64 bits hold a whole number, with a sign or without. -/
def fitsWord (whole : Int) : Bool :=
  (Int64.ofInt whole).toInt = whole || (UInt64.ofInt whole).toNat = whole

/-- The value of a numeral: a whole one of 64 bits, or a finite number. -/
def value? (numeral : JsonNumeral) : Option Json :=
  match numeral.whole?.filter fitsWord with
  | some whole => some (.integer whole)
  | none => numeral.number?.map Json.number

end JsonNumeral

end AnchorScript
