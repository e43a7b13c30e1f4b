import AnchorScript.Page.Lead
import AnchorScript.Selection.Arrangement

namespace AnchorScript

/-!
# Comparison and levels

The optimisation page compares two practices row by row, and lists the levels
of the newer one. Rows come from one fixed source; a level comes from a source
in the scope `ASO` whose name starts with `Level_`.
-/

/-- One row of the comparison. -/
structure ComparisonRow where
  seo : String
  aso : String
  order : Binary64
deriving Repr, DecidableEq

namespace ComparisonRow

/-- The row that a statement carries. -/
def ofStatement (statement : Statement) : ComparisonRow where
  seo := statement.textOr "seo" ""
  aso := statement.textOr "aso" ""
  order := statement.shownOrder

/-- The rows of a document, in their explicit order. -/
def allOf (document : Document) : List ComparisonRow :=
  (Statement.arrangeByOrder (document.comingFrom "ASO:Comparison")).map
    ofStatement

/-- The row as a record. -/
def toJson (row : ComparisonRow) : Json :=
  .record
    [("seo", .text row.seo), ("aso", .text row.aso),
      ("order", Json.ofNumber row.order)]

end ComparisonRow

/-- One level of the practice. -/
structure Level where
  name : String
  year : String
  layer : String
  description : String
  order : Binary64
deriving Repr, DecidableEq

namespace Level

/-- The level that a statement carries. -/
def ofStatement (statement : Statement) : Level where
  name := statement.textOr "name" ""
  year := statement.textOr "year" ""
  layer := statement.textOr "layer" ""
  description := statement.textOr "description" ""
  order := statement.shownOrder

/-- The source of the statement is named as a level. -/
def isDeclaredBy (statement : Statement) : Bool :=
  ['L', 'e', 'v', 'e', 'l', '_'].isPrefixOf statement.source.name.toList

/-- The levels of a document, in their explicit order. -/
def allOf (document : Document) : List Level :=
  (Statement.arrangeByOrder
    ((document.touching "ASO" .source).filter isDeclaredBy)).map
    ofStatement

/-- The level as a record. -/
def toJson (level : Level) : Json :=
  .record
    [("name", .text level.name), ("year", .text level.year),
      ("layer", .text level.layer),
      ("description", .text level.description),
      ("order", Json.ofNumber level.order)]

end Level

end AnchorScript
