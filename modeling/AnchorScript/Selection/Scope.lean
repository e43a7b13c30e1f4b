import AnchorScript.Document

namespace AnchorScript

/-!
# Selecting statements

Statements are selected by the scope of their anchors or by the exact text of
their source. A selection keeps the order of the document.
-/

/-- The anchors of a statement that a selection looks at. -/
inductive Side where
  | source
  | target
  | either
deriving Repr, DecidableEq

/-- A selection that does not name a side looks at both anchors. -/
instance : Inhabited Side :=
  ⟨.either⟩

namespace Statement

/-- An anchor on the given side is in the scope. -/
def touches
    (statement : Statement)
    (scope : String) :
    Side → Bool
  | .source => statement.source.isIn scope
  | .target => statement.target.isIn scope
  | .either => statement.source.isIn scope || statement.target.isIn scope

/-- The source is written exactly so. -/
def comesFrom
    (statement : Statement)
    (raw : String) :
    Bool :=
  statement.source.raw = raw

end Statement

namespace Document

/-- The statements with an anchor in the scope. -/
def touching
    (document : Document)
    (scope : String)
    (side : Side) :
    List Statement :=
  document.statements.filter fun statement => statement.touches scope side

/-- The statements whose source is written exactly so. -/
def comingFrom
    (document : Document)
    (raw : String) :
    List Statement :=
  document.statements.filter fun statement => statement.comesFrom raw

end Document

end AnchorScript
