namespace AnchorScript.Text

/-!
# Blank characters

The characters that may be trimmed away around names, values and lines, and
that may stand freely around the delimiters of a statement. They are the
characters with the Unicode property `White_Space`; the byte-order mark and the
zero-width space do not have it.
-/

/-- Code point ranges of the property `White_Space`, ascending, both ends included. -/
def blankRanges : List (Nat × Nat) :=
  [(0x09, 0x0D), (0x20, 0x20), (0x85, 0x85), (0xA0, 0xA0), (0x1680, 0x1680),
    (0x2000, 0x200A), (0x2028, 0x2029), (0x202F, 0x202F), (0x205F, 0x205F),
    (0x3000, 0x3000)]

/-- A character is blank when its code point lies in one of the ranges. -/
def isBlank (character : Char) : Bool :=
  blankRanges.any fun range =>
    range.1 ≤ character.toNat && character.toNat ≤ range.2

/-- The text from its first character that is not blank. -/
def trimStart (text : List Char) : List Char :=
  text.dropWhile isBlank

/-- The text up to its last character that is not blank. -/
def trimEnd (text : List Char) : List Char :=
  (text.reverse.dropWhile isBlank).reverse

/-- The text without the blanks at its two ends. -/
def trim (text : List Char) : List Char :=
  trimEnd (trimStart text)

/-- Every character that counts as whitespace in code is blank. -/
theorem isBlank_of_isWhitespace
    (character : Char)
    (whitespace : character.isWhitespace = true) :
    isBlank character = true := by
  simp only [Char.isWhitespace, Bool.or_eq_true,
    decide_eq_true_eq] at whitespace
  rcases whitespace with ((same | same) | same) | same <;>
    subst same <;> decide

/-- The property has twenty-five characters. -/
example :
    blankRanges.foldl (fun count range => count + (range.2 + 1 - range.1)) 0 =
      25 := by
  decide

end AnchorScript.Text
