import AnchorScript.Document

namespace AnchorScript

/-!
# Grouping by source

Statements with the same source text form a group. Groups stand in the order in
which their sources first appear, and a group keeps the order of its statements.
-/

/-- The statements of one source. -/
structure SourceGroup where
  source : String
  statements : List Statement
deriving Repr, DecidableEq

namespace SourceGroup

/-- Put a statement at the end of its group, or into a new group at the end. -/
def add
    (statement : Statement) :
    List SourceGroup → List SourceGroup
  | [] => [⟨statement.source.raw, [statement]⟩]
  | group :: rest =>
      if group.source = statement.source.raw then
        ⟨group.source, group.statements ++ [statement]⟩ :: rest
      else
        group :: add statement rest

/-- The groups of statements. -/
def ofStatements (statements : List Statement) : List SourceGroup :=
  statements.foldl (fun groups statement => add statement groups) []

end SourceGroup

end AnchorScript
