import AnchorScript.Json.Basic
import AnchorScript.Number.Layout

namespace AnchorScript

/-!
# Writing JSON

A value is written without blanks. In a text only the quote, the backslash and
control characters are escaped; all others stand for themselves. A number that
is not kept whole always has a point or a power of ten, so that reading it
gives no integer.
-/

namespace Json

/-- Magnitudes from a hundred-thousandth to below ten to the power 16 have no exponent. -/
def isPlainNumber (number : Binary64) : Bool :=
  Binary64.rankOfDecimal ⟨1, -5⟩ ≤ number.rank &&
    number.rank < Binary64.rankOfDecimal ⟨1, 16⟩

/-- How numbers are written: a whole one with a zero place, and a zero with its sign. -/
def numberLayout : NumberLayout where
  isPositional := isPlainNumber
  wholeEnding := ['.', '0']
  plusSign := []
  signedZero := true
  notANumber := "null"
  infinity := "null"

/-- A character as it stands in a text in quotes. -/
def escaped (character : Char) : List Char :=
  match character with
  | '"' => ['\\', '"']
  | '\\' => ['\\', '\\']
  | '\x08' => ['\\', 'b']
  | '\x0c' => ['\\', 'f']
  | '\n' => ['\\', 'n']
  | '\r' => ['\\', 'r']
  | '\t' => ['\\', 't']
  | other =>
      if other.toNat < 0x20 then
        let digits := Nat.toDigits 16 other.toNat
        '\\' :: 'u' :: List.replicate (4 - digits.length) '0' ++ digits
      else
        [other]

/-- A text in quotes. -/
def quoted (characters : String) : List Char :=
  '"' :: characters.toList.flatMap escaped ++ ['"']

/-- Pieces with commas between them. -/
def separated : List (List Char) → List Char
  | [] => []
  | [piece] => piece
  | piece :: rest => piece ++ ',' :: separated rest

mutual

/-- The characters of a value. -/
def characters : Json → List Char
  | .null => "null".toList
  | .flag truth => if truth then "true".toList else "false".toList
  | .integer whole => (toString whole).toList
  | .number binary =>
      if binary.isFinite then numberLayout.text binary else "null".toList
  | .text written => quoted written
  | .list items => '[' :: separated (itemPieces items) ++ [']']
  | .record fields => '\x7b' :: separated (fieldPieces fields) ++ ['\x7d']

/-- The characters of each item of a list. -/
def itemPieces : List Json → List (List Char)
  | [] => []
  | item :: rest => characters item :: itemPieces rest

/-- The characters of each field of a record. -/
def fieldPieces : List (String × Json) → List (List Char)
  | [] => []
  | (key, value) :: rest =>
      (quoted key ++ ':' :: characters value) :: fieldPieces rest

end

/-- The text of a value. -/
def render (value : Json) : String :=
  String.ofList value.characters

end Json

end AnchorScript
