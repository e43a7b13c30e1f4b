import AnchorScript.Page.Tool
import AnchorScript.Proofs.Selection.Carriers

namespace AnchorScript

/-!
# How tools are put together

A tool is carried by the first description of its source; everything else that
the source says goes to the list of its scope, and a further description goes to
none. A tool depends on the statements of its own source alone.
-/

namespace Tool

/-- The statement contributes to the list of a scope; a description never does. -/
def isItem
    (scope : String)
    (statement : Statement) :
    Bool :=
  statement.target.raw ≠ "Description" ∧
    statement.target.scope = some scope

end Tool

end AnchorScript
