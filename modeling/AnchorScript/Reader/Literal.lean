import AnchorScript.Text.Blank
import AnchorScript.Value

namespace AnchorScript

/-!
# Literals

The literal after an equals sign decides what kind of value it is: `true` and
`false` are flags, numerals are numbers, and everything else is a text. A text
may stand in one pair of quotes, which is taken off; what stands in the quotes
is kept as it was written, escapes included.
-/

namespace Reader

/-- The text starts and ends with the quote; one quote can be both. -/
def isQuotedBy
    (quote : Char)
    (text : List Char) :
    Bool :=
  text.head? = some quote && text.getLast? = some quote

/-- Take off double quotes, or else single quotes. A quote alone leaves nothing. -/
def unquote (text : List Char) : List Char :=
  if isQuotedBy '"' text || isQuotedBy '\'' text then
    (text.drop 1).dropLast
  else
    text

end Reader

/-- The value that a literal stands for; blanks around it do not count. -/
def Value.ofLiteral (literal : List Char) : Value :=
  let trimmed := Text.trim literal
  if trimmed = ['t', 'r', 'u', 'e'] then
    .flag true
  else if trimmed = ['f', 'a', 'l', 's', 'e'] then
    .flag false
  else
    match Numeral.ofText? trimmed with
    | some numeral => .number (Binary64.ofNumeral numeral)
    | none => .text (String.ofList (Reader.unquote trimmed))

end AnchorScript
