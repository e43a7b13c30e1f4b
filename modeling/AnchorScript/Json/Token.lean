import AnchorScript.Json.Numeral
import AnchorScript.Text.Percent

namespace AnchorScript

/-!
# Tokens of JSON

A JSON text is a sequence of marks, texts in quotes, and words, with blanks
between them. A word is a numeral or one of three names. Marks and blanks end a
word, so that no two words can touch.
-/

/-- A token of a JSON text. -/
inductive JsonToken where
  | openList
  | closeList
  | openRecord
  | closeRecord
  | comma
  | colon
  | scalar (value : Json)
deriving Repr

/-- A part of a text in quotes: a character, or a unit of two bytes written in an escape. -/
inductive QuotedPart where
  | plain (character : Char)
  | unit (code : Nat)
deriving Repr, DecidableEq

namespace QuotedPart

/-- The first half of a character that takes two units. -/
def isLeading (code : Nat) : Bool :=
  0xD800 ≤ code && code < 0xDC00

/-- The second half of a character that takes two units. -/
def isTrailing (code : Nat) : Bool :=
  0xDC00 ≤ code && code < 0xE000

/-- The text that parts make up; halves of characters must come in pairs. -/
def text? : List QuotedPart → Option (List Char)
  | [] => some []
  | plain character :: rest => (text? rest).map (character :: ·)
  | unit first :: unit second :: rest =>
      if isLeading first then
        if isTrailing second then
          let code := 0x10000 + (first - 0xD800) * 0x400 + (second - 0xDC00)
          (text? rest).map (Char.ofNat code :: ·)
        else none
      else if isTrailing first then none
      else (text? (unit second :: rest)).map (Char.ofNat first :: ·)
  | unit code :: rest =>
      if isLeading code || isTrailing code then none
      else (text? rest).map (Char.ofNat code :: ·)

end QuotedPart

namespace JsonToken

/-- The character that a short escape stands for. -/
def escaped? : Char → Option Char
  | '"' => some '"'
  | '\\' => some '\\'
  | '/' => some '/'
  | 'b' => some '\x08'
  | 'f' => some '\x0c'
  | 'n' => some '\n'
  | 'r' => some '\r'
  | 't' => some '\t'
  | _ => none

/-- The unit that four hexadecimal digits write. -/
def unit? (first second third fourth : Char) : Option Nat := do
  let high ← Text.hexByte? first second
  let low ← Text.hexByte? third fourth
  return high.toNat * 256 + low.toNat

/-- The parts up to the closing quote, and what stands after it. -/
def quoted? : List Char → Option (List QuotedPart × List Char)
  | [] => none
  | '"' :: rest => some ([], rest)
  | '\\' :: 'u' :: first :: second :: third :: fourth :: rest => do
      let code ← unit? first second third fourth
      let (parts, after) ← quoted? rest
      return (.unit code :: parts, after)
  | '\\' :: letter :: rest => do
      let character ← escaped? letter
      let (parts, after) ← quoted? rest
      return (.plain character :: parts, after)
  | character :: rest =>
      if character.toNat < 0x20 then none
      else do
        let (parts, after) ← quoted? rest
        return (.plain character :: parts, after)

/-- What stands after the closing quote is shorter than the text. -/
theorem length_lt_of_quoted?
    {text after : List Char}
    {parts : List QuotedPart}
    (found : quoted? text = some (parts, after)) :
    after.length < text.length := by
  fun_induction quoted? text generalizing parts after with
  | case1 =>
      simp at found
  | case2 rest =>
      simp only [Option.some.injEq, Prod.mk.injEq] at found
      simp [found.2]
  | case3 first second third fourth rest inductionHypothesis =>
      simp only [Option.bind_eq_bind, Option.bind_eq_some_iff,
        Option.pure_def, Option.some.injEq, Prod.mk.injEq] at found
      obtain ⟨_, _, ⟨tail, left⟩, foundRest, _, sameAfter⟩ := found
      have shorter := inductionHypothesis foundRest
      simp only at sameAfter
      subst sameAfter
      simp only [List.length_cons]
      omega
  | case4 letter rest _ inductionHypothesis =>
      simp only [Option.bind_eq_bind, Option.bind_eq_some_iff,
        Option.pure_def, Option.some.injEq, Prod.mk.injEq] at found
      obtain ⟨_, _, ⟨tail, left⟩, foundRest, _, sameAfter⟩ := found
      have shorter := inductionHypothesis foundRest
      simp only at sameAfter
      subst sameAfter
      simp only [List.length_cons]
      omega
  | case5 =>
      simp at found
  | case6 character rest _ _ _ _ inductionHypothesis =>
      simp only [Option.bind_eq_bind, Option.bind_eq_some_iff,
        Option.pure_def, Option.some.injEq, Prod.mk.injEq] at found
      obtain ⟨⟨tail, left⟩, foundRest, _, sameAfter⟩ := found
      have shorter := inductionHypothesis foundRest
      simp only at sameAfter
      subst sameAfter
      simp only [List.length_cons]
      omega

/-- The blanks between tokens. -/
def isBlank (character : Char) : Bool :=
  character = ' ' || character = '\t' || character = '\n' || character = '\r'

/-- The mark that a character is. -/
def mark? : Char → Option JsonToken
  | '[' => some openList
  | ']' => some closeList
  | '\x7b' => some openRecord
  | '\x7d' => some closeRecord
  | ',' => some comma
  | ':' => some colon
  | _ => none

/-- The characters of numerals and names. -/
def inWord (character : Char) : Bool :=
  character.isAlphanum || character = '-' || character = '+' || character = '.'

/-- The value that a word stands for. -/
def wordValue? (word : List Char) : Option Json :=
  if word = "null".toList then some .null
  else if word = "true".toList then some (.flag true)
  else if word = "false".toList then some (.flag false)
  else (JsonNumeral.ofText? word).bind JsonNumeral.value?

/-- The tokens of a text. -/
def ofText? (text : List Char) : Option (List JsonToken) :=
  match text with
  | [] => some []
  | first :: rest =>
      if isBlank first then
        ofText? rest
      else if first = '"' then
        match found : quoted? rest with
        | none => none
        | some (parts, after) => do
            have _shorter := length_lt_of_quoted? found
            let written ← QuotedPart.text? parts
            let others ← ofText? after
            return scalar (.text (String.ofList written)) :: others
      else
        match mark? first with
        | some mark => (ofText? rest).map (mark :: ·)
        | none => do
            let value ← wordValue? (first :: rest.takeWhile inWord)
            let others ← ofText? (rest.dropWhile inWord)
            return scalar value :: others
termination_by text.length
decreasing_by
  · simp
  · simp only [List.length_cons]
    omega
  · simp
  · have shorter := (rest.dropWhile_sublist inWord).length_le
    simp only [List.length_cons]
    omega

end JsonToken

end AnchorScript
