import AnchorScript.Text.Percent

namespace AnchorScript

/-!
# Tokens of a settings table

A settings table is written in lines of keys and values. Its tokens are marks,
bare words and texts in quotes; the end of a line counts, blanks and comments
do not. In double quotes a backslash starts an escape, in single quotes nothing
does, and neither kind of text goes on in the next line.
-/

/-- A token of a settings table. -/
inductive TableToken where
  | opening
  | closing
  | dot
  | equals
  | comma
  | lineEnd
  | word (characters : List Char)
  | text (characters : List Char)
deriving Repr, DecidableEq

namespace TableToken

/-- A character that can stand neither in a text nor in a comment. -/
def isControl (character : Char) : Bool :=
  (character.toNat < 0x20 && character ≠ '\t') || character.toNat = 0x7F

/-- The character that a short escape stands for. -/
def escaped? : Char → Option Char
  | '"' => some '"'
  | '\\' => some '\\'
  | 'b' => some '\x08'
  | 'e' => some '\x1b'
  | 'f' => some '\x0c'
  | 'n' => some '\n'
  | 'r' => some '\r'
  | 't' => some '\t'
  | _ => none

/-- How many hexadecimal digits an escape takes that names its character. -/
def digitCount? : Char → Option Nat
  | 'x' => some 2
  | 'u' => some 4
  | 'U' => some 8
  | _ => none

/-- The character that hexadecimal digits name, if they name one. -/
def named? (digits : List Char) : Option Char := do
  let values ← digits.mapM Text.hexDigit?
  let code := values.foldl (fun found value => 16 * found + value) 0
  if code < 0xD800 ∨ (0xDFFF < code ∧ code < 0x110000) then
    some (Char.ofNat code)
  else none

/-- The character of the escape behind a backslash, and what stands after it. -/
def escape? : List Char → Option (Char × List Char)
  | [] => none
  | letter :: rest =>
      match digitCount? letter with
      | some count =>
          if rest.length < count then none
          else
            (named? (rest.take count)).map fun character =>
              (character, rest.drop count)
      | none => (escaped? letter).map fun character => (character, rest)

/-- What stands after an escape is shorter than the text. -/
theorem length_lt_of_escape?
    {text after : List Char}
    {character : Char}
    (found : escape? text = some (character, after)) :
    after.length < text.length := by
  cases text with
  | nil =>
      simp [escape?] at found
  | cons letter rest =>
      simp only [escape?] at found
      split at found
      · split at found
        · simp at found
        · simp only [Option.map_eq_some_iff, Prod.mk.injEq] at found
          obtain ⟨_, _, _, sameAfter⟩ := found
          simp only [← sameAfter, List.length_drop, List.length_cons]
          omega
      · simp only [Option.map_eq_some_iff, Prod.mk.injEq] at found
        obtain ⟨_, _, _, sameAfter⟩ := found
        simp [← sameAfter]

/-- The text up to the closing double quote, and what stands after it. -/
def quoted? (text : List Char) : Option (List Char × List Char) :=
  match text with
  | [] => none
  | '"' :: rest => some ([], rest)
  | '\\' :: rest =>
      match found : escape? rest with
      | none => none
      | some (character, others) => do
          have _shorter := length_lt_of_escape? found
          let (written, after) ← quoted? others
          return (character :: written, after)
  | character :: rest =>
      if isControl character then none
      else do
        let (written, after) ← quoted? rest
        return (character :: written, after)
termination_by text.length

/-- What stands after the closing quote is shorter than the text. -/
theorem length_lt_of_quoted?
    {text after written : List Char}
    (found : quoted? text = some (written, after)) :
    after.length < text.length := by
  fun_induction quoted? text generalizing written after with
  | case1 =>
      simp at found
  | case2 rest =>
      simp only [Option.some.injEq, Prod.mk.injEq] at found
      simp [found.2]
  | case3 =>
      simp at found
  | case4 rest character others foundEscape shorter inductionHypothesis =>
      simp only [Option.bind_eq_bind, Option.bind_eq_some_iff,
        Option.pure_def, Option.some.injEq, Prod.mk.injEq] at found
      obtain ⟨⟨tail, left⟩, foundRest, _, sameAfter⟩ := found
      have shorterRest := inductionHypothesis foundRest
      simp only at sameAfter
      subst sameAfter
      simp only [List.length_cons]
      omega
  | case5 =>
      simp at found
  | case6 character rest _ _ _ inductionHypothesis =>
      simp only [Option.bind_eq_bind, Option.bind_eq_some_iff,
        Option.pure_def, Option.some.injEq, Prod.mk.injEq] at found
      obtain ⟨⟨tail, left⟩, foundRest, _, sameAfter⟩ := found
      have shorterRest := inductionHypothesis foundRest
      simp only at sameAfter
      subst sameAfter
      simp only [List.length_cons]
      omega

/-- The mark that a character is. -/
def mark? : Char → Option TableToken
  | '[' => some opening
  | ']' => some closing
  | '.' => some dot
  | '=' => some equals
  | ',' => some comma
  | '\n' => some lineEnd
  | _ => none

/-- The characters of bare words. -/
def inWord (character : Char) : Bool :=
  character.isAlphanum || character = '_' || character = '-'

/-- The tokens of a text. -/
def ofText? (text : List Char) : Option (List TableToken) :=
  match text with
  | [] => some []
  | '\r' :: '\n' :: rest => (ofText? rest).map (lineEnd :: ·)
  | first :: rest =>
      if first = ' ' ∨ first = '\t' then
        ofText? rest
      else if first = '#' then
        let comment := rest.takeWhile fun character =>
          !isControl character
        ofText? (rest.drop comment.length)
      else if first = '"' then
        match found : quoted? rest with
        | none => none
        | some (written, after) =>
            have _shorter := length_lt_of_quoted? found
            (ofText? after).map (TableToken.text written :: ·)
      else if first = '\'' then
        let written := rest.takeWhile fun character =>
          !isControl character && character ≠ '\''
        match rest.drop written.length with
        | '\'' :: _ =>
            (ofText? (rest.drop (written.length + 1))).map
              (TableToken.text written :: ·)
        | _ => none
      else
        match mark? first with
        | some mark => (ofText? rest).map (mark :: ·)
        | none =>
            if inWord first then
              let others := rest.takeWhile inWord
              (ofText? (rest.drop others.length)).map
                (word (first :: others) :: ·)
            else none
termination_by text.length
decreasing_by
  all_goals simp only [List.length_cons, List.length_drop]
  all_goals omega

end TableToken

end AnchorScript
