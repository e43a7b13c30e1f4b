namespace AnchorScript.Text

/-!
# Percent-coded text

In a path a byte may be written as a percent sign and its two hexadecimal
digits. A percent sign that no two digits follow stands for itself. The bytes
that come out need not be a text.
-/

/-- The value of a hexadecimal digit, in either case. -/
def hexDigit? (digit : Char) : Option Nat :=
  if '0' ≤ digit ∧ digit ≤ '9' then some (digit.toNat - '0'.toNat)
  else if 'a' ≤ digit ∧ digit ≤ 'f' then some (digit.toNat - 'a'.toNat + 10)
  else if 'A' ≤ digit ∧ digit ≤ 'F' then some (digit.toNat - 'A'.toNat + 10)
  else none

/-- The byte that two characters write in hexadecimal digits. -/
def hexByte? (high low : Char) : Option UInt8 := do
  return UInt8.ofNat (16 * (← hexDigit? high) + (← hexDigit? low))

/-- The bytes that percent-coded characters stand for. -/
def percentBytes : List Char → List UInt8
  | first :: high :: low :: after =>
      match first, hexByte? high low with
      | '%', some byte => byte :: percentBytes after
      | _, _ => String.utf8EncodeChar first ++ percentBytes (high :: low :: after)
  | first :: rest => String.utf8EncodeChar first ++ percentBytes rest
  | [] => []

/-- The text that percent-coded characters stand for, if it is a text. -/
def percentDecoded? (written : String) : Option String :=
  String.fromUTF8? ⟨(percentBytes written.toList).toArray⟩

end AnchorScript.Text
