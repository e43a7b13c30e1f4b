import AnchorScript.Anchor
import AnchorScript.Modifiers

namespace AnchorScript

/-!
# Statements and documents

A statement leads from a source anchor to a target anchor and carries
modifiers. A document holds the statements of one source text in order, and the
bodies of its comments.
-/

/-- An arrow from one anchor to another, with modifiers. -/
structure Statement where
  source : Anchor
  target : Anchor
  modifiers : Modifiers
deriving Repr, DecidableEq

namespace Statement

/-- The value of a modifier. -/
def modifier?
    (statement : Statement)
    (key : String) :
    Option Value :=
  statement.modifiers.get? key

/-- The flag that a modifier is; another kind of value counts as absent. -/
def flag?
    (statement : Statement)
    (key : String) :
    Option Bool :=
  (statement.modifier? key).bind Value.flag?

/-- The number that a modifier is; another kind of value counts as absent. -/
def number?
    (statement : Statement)
    (key : String) :
    Option Binary64 :=
  (statement.modifier? key).bind Value.number?

/-- The text of a modifier; flags and numbers read as they are written. -/
def text?
    (statement : Statement)
    (key : String) :
    Option String :=
  (statement.modifier? key).map Value.render

/-- The statement on one line; empty modifiers are left out. -/
def render (statement : Statement) : String :=
  let arrow := statement.source.render ++ " -> " ++ statement.target.render
  if statement.modifiers.isEmpty then arrow
  else arrow ++ " " ++ statement.modifiers.render

/-- The same anchors, and modifiers that agree. -/
def agrees (left right : Statement) : Bool :=
  left.source = right.source && left.target = right.target &&
    left.modifiers.agrees right.modifiers

/-- Lists of the same length whose statements agree one by one. -/
def allAgree : List Statement → List Statement → Bool
  | [], [] => true
  | left :: lefts, right :: rights =>
      left.agrees right && allAgree lefts rights
  | _, _ => false

end Statement

/-- The statements of a source text and the bodies of its comments, both in order. -/
structure Document where
  statements : List Statement
  comments : List String
deriving Repr, DecidableEq

namespace Document

/-- The same comments, and statements that agree. -/
def agrees (left right : Document) : Bool :=
  Statement.allAgree left.statements right.statements &&
    left.comments = right.comments

end Document

end AnchorScript
