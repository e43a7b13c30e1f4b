import AnchorScript.Text.Blank
import AnchorScript.Text.Cut

namespace AnchorScript

/-!
# Anchors

An anchor is one bracketed end of a statement. What stands in the brackets is
kept without surrounding blanks, and a colon in it separates the scope from the
name. No further restriction is made on the characters.
-/

/-- One end of a statement. -/
structure Anchor where
  /-- What precedes the first colon, if there is a colon. -/
  scope : Option String
  /-- What follows the first colon, or everything. -/
  name : String
  /-- The trimmed text as it was written, for exact lookups. -/
  raw : String
deriving Repr, DecidableEq

namespace Anchor

/-- Read what stands between the brackets. -/
def ofText (text : List Char) : Anchor :=
  let trimmed := Text.trim text
  match Text.cut? ':' trimmed with
  | some (scope, name) =>
      ⟨some (String.ofList scope), String.ofList name, String.ofList trimmed⟩
  | none =>
      ⟨none, String.ofList trimmed, String.ofList trimmed⟩

/-- The anchor's scope is exactly the given one. -/
def isIn
    (anchor : Anchor)
    (scope : String) :
    Bool :=
  anchor.scope = some scope

/-- The anchor in its brackets. -/
def render (anchor : Anchor) : String :=
  "[" ++ anchor.raw ++ "]"

end Anchor

end AnchorScript
