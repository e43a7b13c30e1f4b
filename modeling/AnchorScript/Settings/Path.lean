import AnchorScript.Text.Cut

namespace AnchorScript

/-!
# Paths to settings

A key of a layer is a path: a name, then names behind dots and positions in
brackets. Names have ASCII letters, digits, underscores and hyphens. A position
is a whole number of 64 signed bits with blanks around it or not, and one below
zero counts from the end. A key that is no such path is one name.
-/

/-- A step from a value to one of its parts. -/
inductive PathStep where
  | field (name : String)
  | item (position : Int)
deriving Repr, DecidableEq

namespace PathStep

/-- The characters of the names in a path. -/
def inName (character : Char) : Bool :=
  character.isAlphanum || character = '_' || character = '-'

/-- The blanks that may stand around a position. -/
def isSpace (character : Char) : Bool :=
  character = ' ' || character = '\t'

/-- The position that stands between two brackets. -/
def position? (written : List Char) : Option Int :=
  let signed := written.dropWhile isSpace
  let unsigned :=
    match signed with
    | '-' :: rest => rest
    | _ => signed
  let digits := unsigned.takeWhile Char.isDigit
  let magnitude : Int := Nat.ofDigitChars 10 digits 0
  let position := if signed.head? = some '-' then -magnitude else magnitude
  if digits ≠ [] ∧ (unsigned.drop digits.length).all isSpace = true ∧
      (Int64.ofInt position).toInt = position then
    some position
  else none

/-- The steps that a text writes, each with its dot or its brackets. -/
def ofText? (text : List Char) : Option (List PathStep) :=
  match text with
  | [] => some []
  | '.' :: rest =>
      let name := rest.takeWhile inName
      if name = [] then none
      else
        (ofText? (rest.drop name.length)).map
          (field (String.ofList name) :: ·)
  | '[' :: rest =>
      match found : Text.cut? ']' rest with
      | none => none
      | some (written, after) => do
          have _shorter := Text.length_lt_of_cut? found
          let position ← position? written
          let others ← ofText? after
          return item position :: others
  | _ => none
termination_by text.length
decreasing_by
  all_goals simp only [List.length_cons, List.length_drop]
  all_goals omega

/-- The steps that a key leads through; only its first name has no dot. -/
def ofKey (key : String) : List PathStep :=
  (ofText? ('.' :: key.toList)).getD [field key]

end PathStep

end AnchorScript
