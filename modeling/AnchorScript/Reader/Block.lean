import AnchorScript.Reader.Pair
import AnchorScript.Text.Cut

namespace AnchorScript

/-!
# Modifier blocks

A block opens with `::mod(`. It closes at the parenthesis that matches, where
parentheses inside may be nested once; if there is no such parenthesis it
closes at the first closing one. Blocks may stand anywhere on a line, also
before or inside the anchors, and what stands between them does not count.
-/

namespace Reader

/-- The characters that open a block. -/
def blockMark : List Char :=
  [':', ':', 'm', 'o', 'd', '(']

/-- The text after the opening of a block at the front. -/
def insideBlock? (text : List Char) : Option (List Char) :=
  if blockMark.isPrefixOf text then some (text.drop blockMark.length)
  else none

/--
What stands before the matching parenthesis, and the text after it. The flag
says whether a nested parenthesis is open; a second one may not be opened.
-/
def balancedBody? :
    Bool → List Char → Option (List Char × List Char)
  | _, [] => none
  | nested, first :: rest =>
      if first = ')' ∧ nested = false then
        some ([], rest)
      else if first = '(' ∧ nested = true then
        none
      else
        (balancedBody?
            (if first = '(' then true
              else if first = ')' then false
              else nested)
            rest).map
          fun found => (first :: found.1, found.2)

/-- The body of a block and the text after its closing parenthesis. -/
def blockBody?
    (inside : List Char) :
    Option (List Char × List Char) :=
  match balancedBody? false inside with
  | some found => some found
  | none => Text.cut? ')' inside

/-- The text after a balanced body is shorter. -/
theorem length_lt_of_balancedBody?
    {nested : Bool}
    {text body after : List Char}
    (found : balancedBody? nested text = some (body, after)) :
    after.length < text.length := by
  induction text generalizing nested body with
  | nil =>
      simp [balancedBody?] at found
  | cons first rest inductionHypothesis =>
      simp only [balancedBody?] at found
      split at found
      · simp only [Option.some.injEq, Prod.mk.injEq] at found
        simp [found.2]
      · split at found
        · simp at found
        · simp only [Option.map_eq_some_iff, Prod.mk.injEq] at found
          obtain ⟨⟨inner, last⟩, foundRest, _, sameAfter⟩ := found
          simp only at sameAfter
          subst sameAfter
          have := inductionHypothesis foundRest
          simp only [List.length_cons]
          omega

/-- The text after a block is shorter than the text after its opening. -/
theorem length_lt_of_blockBody?
    {inside body after : List Char}
    (found : blockBody? inside = some (body, after)) :
    after.length < inside.length := by
  simp only [blockBody?] at found
  split at found
  · rename_i pair foundBalanced
    simp only [Option.some.injEq] at found
    subst found
    exact length_lt_of_balancedBody? foundBalanced
  · exact Text.length_lt_of_cut? found

/-- The text after the opening of a block is not longer. -/
theorem length_le_of_insideBlock?
    {text inside : List Char}
    (found : insideBlock? text = some inside) :
    inside.length ≤ text.length := by
  simp only [insideBlock?] at found
  split at found
  · simp only [Option.some.injEq] at found
    simp [← found]
  · simp at found

/--
The bodies of the blocks of a line, from left to right. Where an opening is
never closed, no later one can be closed either.
-/
def blocks : List Char → List (List Char)
  | [] => []
  | first :: rest =>
      match _opened : insideBlock? (first :: rest) with
      | none => blocks rest
      | some inside =>
          match _closed : blockBody? inside with
          | some (body, after) => body :: blocks after
          | none => []
termination_by text => text.length
decreasing_by
  · simp
  · have := length_le_of_insideBlock? _opened
    have := length_lt_of_blockBody? _closed
    omega

end Reader

/-- The modifiers of all blocks of a line; later blocks win. -/
def Modifiers.ofLine (line : List Char) : Modifiers :=
  (Reader.blocks line).foldl
    (fun built block => built.merge (Modifiers.ofBlock block))
    Modifiers.empty

end AnchorScript
