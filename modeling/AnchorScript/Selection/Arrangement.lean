import AnchorScript.Document

namespace AnchorScript

/-!
# Explicit order

Statements may say their place by a number under the key `order`; the others
count as if they said 999. Arranging is stable: items that are not less than
each other keep their order, and what is not a number is not less than
anything, nor greater.
-/

/--
Insert an item into items in arranged order, the last of them first. The item
passes those that it is less than, and stops at the first other.
-/
def insertArranged
    {α : Type}
    (less : α → α → Bool)
    (item : α) :
    List α → List α
  | [] => [item]
  | last :: earlier =>
      if less item last then
        last :: insertArranged less item earlier
      else
        item :: last :: earlier

/-- Arrange items one after the other, each behind those that it is not less than. -/
def arrange
    {α : Type}
    (less : α → α → Bool)
    (items : List α) :
    List α :=
  (items.foldl
    (fun arranged item => insertArranged less item arranged) []).reverse

namespace Statement

/-- The key under which a statement says its place. -/
def orderKey : String :=
  "order"

/-- The place of a statement that says none. -/
def defaultOrder : Binary64 :=
  Binary64.ofNumeral ⟨false, ⟨999, 0⟩⟩

/-- The place that a statement says, if it is a number. -/
def order (statement : Statement) : Binary64 :=
  ((statement.modifier? orderKey).bind Value.number?).getD defaultOrder

/-- Statements by their places, ascending. -/
def arrangeByOrder (statements : List Statement) : List Statement :=
  arrange (fun left right => left.order.less right.order) statements

end Statement

end AnchorScript
