import AnchorScript.Modifiers
import AnchorScript.Reader.Literal

namespace AnchorScript

/-!
# Key and value pairs

A pair is a word, an equals sign and a literal, with blanks around the equals
sign. A quoted literal runs to its closing quote; a backslash in it takes the
next character with it, but never a line feed. Any other literal, and one whose
quote is never closed, runs to the next comma or closing parenthesis. Text
between pairs is passed over, so a list of pairs has no malformed form.
-/

namespace Reader

/-- Keys are made of ASCII letters, ASCII digits and underscores. -/
def isWord (character : Char) : Bool :=
  character.isAlphanum || character = '_'

theorem isWord_iff {character : Char} :
    isWord character = true ↔
      character.isAlphanum = true ∨ character = '_' := by
  simp [isWord]

/-- The characters of a literal without quotes. -/
def isBare (character : Char) : Bool :=
  character ≠ ',' && character ≠ ')'

/-- What stands before the closing quote, and the text after it. -/
def quotedBody?
    (quote : Char) :
    List Char → Option (List Char × List Char)
  | [] => none
  | first :: rest =>
      if first = quote then
        some ([], rest)
      else if first = '\\' then
        match rest with
        | [] => none
        | escaped :: later =>
            if escaped = '\n' then
              none
            else
              (quotedBody? quote later).map fun found =>
                (first :: escaped :: found.1, found.2)
      else
        (quotedBody? quote rest).map fun found =>
          (first :: found.1, found.2)

/-- The longest bare literal at the front, which is not empty. -/
def bareLiteral?
    (text : List Char) :
    Option (List Char × List Char) :=
  if text.takeWhile isBare = [] then none
  else some (text.takeWhile isBare, text.dropWhile isBare)

/-- The literal at the front of a text, its quotes included. -/
def literalHere? : List Char → Option (List Char × List Char)
  | [] => none
  | first :: rest =>
      if first = '"' ∨ first = '\'' then
        match quotedBody? first rest with
        | some (body, after) => some (first :: body ++ [first], after)
        | none => bareLiteral? (first :: rest)
      else
        bareLiteral? (first :: rest)

/--
The literal after an equals sign. Blanks before it are passed over; where
nothing but blanks stands, the last of them is the literal.
-/
def literal?
    (text : List Char) :
    Option (List Char × List Char) :=
  match literalHere? (Text.trimStart text) with
  | some found => some found
  | none =>
      (text.takeWhile Text.isBlank).getLast?.map fun blank =>
        ([blank], Text.trimStart text)

/-- The equals sign and the literal that make a word a key. -/
def literalOfKey?
    (text : List Char) :
    Option (List Char × List Char) :=
  match Text.trimStart text with
  | '=' :: rest => literal? rest
  | _ => none

/-- Passing characters over leaves a text that is not longer. -/
private theorem length_dropWhile_le
    (accepted : Char → Bool)
    (text : List Char) :
    (text.dropWhile accepted).length ≤ text.length :=
  (List.dropWhile_sublist accepted).length_le

/-- The text after a quoted body is not longer. -/
theorem length_le_of_quotedBody?
    {quote : Char}
    {text body after : List Char}
    (found : quotedBody? quote text = some (body, after)) :
    after.length ≤ text.length := by
  fun_induction quotedBody? quote text generalizing body with
  | case1 =>
      simp at found
  | case2 =>
      simp only [Option.some.injEq, Prod.mk.injEq] at found
      simp [← found.2]
  | case3 =>
      simp at found
  | case4 =>
      simp at found
  | case5 escaped later notLineFeed notQuote inductionHypothesis =>
      simp only [Option.map_eq_some_iff, Prod.mk.injEq] at found
      obtain ⟨⟨inner, last⟩, foundLater, _, sameAfter⟩ := found
      simp only at sameAfter
      subst sameAfter
      have := inductionHypothesis foundLater
      simp only [List.length_cons]
      omega
  | case6 first rest notQuote notEscape inductionHypothesis =>
      simp only [Option.map_eq_some_iff, Prod.mk.injEq] at found
      obtain ⟨⟨inner, last⟩, foundRest, _, sameAfter⟩ := found
      simp only at sameAfter
      subst sameAfter
      have := inductionHypothesis foundRest
      simp only [List.length_cons]
      omega

/-- The text after a bare literal is not longer. -/
private theorem length_le_of_bareLiteral?
    {text literal after : List Char}
    (found : bareLiteral? text = some (literal, after)) :
    after.length ≤ text.length := by
  simp only [bareLiteral?] at found
  split at found
  · simp at found
  · simp only [Option.some.injEq, Prod.mk.injEq] at found
    rw [← found.2]
    exact length_dropWhile_le _ _

/-- The text after a literal at the front is not longer. -/
theorem length_le_of_literalHere?
    {text literal after : List Char}
    (found : literalHere? text = some (literal, after)) :
    after.length ≤ text.length := by
  cases text with
  | nil =>
      simp [literalHere?] at found
  | cons first rest =>
      simp only [literalHere?] at found
      split at found
      · split at found
        · rename_i body later foundBody
          simp only [Option.some.injEq, Prod.mk.injEq] at found
          rw [← found.2]
          have := length_le_of_quotedBody? foundBody
          simp only [List.length_cons]
          omega
        · exact length_le_of_bareLiteral? found
      · exact length_le_of_bareLiteral? found

/-- The text after a key's literal is not longer than the text after the key. -/
theorem length_le_of_literalOfKey?
    {text literal after : List Char}
    (found : literalOfKey? text = some (literal, after)) :
    after.length ≤ text.length := by
  have trimmed := length_dropWhile_le Text.isBlank text
  simp only [literalOfKey?] at found
  split at found
  · rename_i rest sign
    have signLength :
        (text.dropWhile Text.isBlank).length = rest.length + 1 := by
      simpa [Text.trimStart] using congrArg List.length sign
    have restTrimmed := length_dropWhile_le Text.isBlank rest
    simp only [literal?] at found
    split at found
    · rename_i pair foundHere
      simp only [Option.some.injEq] at found
      subst found
      have := length_le_of_literalHere? foundHere
      simp only [Text.trimStart] at this
      omega
    · simp only [Option.map_eq_some_iff, Prod.mk.injEq] at found
      obtain ⟨_, _, _, sameAfter⟩ := found
      rw [← sameAfter, Text.trimStart]
      omega
  · simp at found

/-- Keys and literals, from left to right. A word without a literal is passed over. -/
def pairs : List Char → List (List Char × List Char)
  | [] => []
  | first :: rest =>
      if isWord first then
        match _found : literalOfKey? (rest.dropWhile isWord) with
        | some (literal, after) =>
            (first :: rest.takeWhile isWord, literal) :: pairs after
        | none =>
            pairs (rest.dropWhile isWord)
      else
        pairs rest
termination_by text => text.length
decreasing_by
  · have := length_le_of_literalOfKey? _found
    have := length_dropWhile_le isWord rest
    simp only [List.length_cons]
    omega
  · have := length_dropWhile_le isWord rest
    simp only [List.length_cons]
    omega
  · simp

end Reader

/-- The modifiers written in one block; the last value of a key counts. -/
def Modifiers.ofBlock (block : List Char) : Modifiers :=
  Modifiers.ofList
    ((Reader.pairs block).map fun pair =>
      (String.ofList pair.1, Value.ofLiteral pair.2))

end AnchorScript
