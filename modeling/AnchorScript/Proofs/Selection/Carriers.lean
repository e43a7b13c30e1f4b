import AnchorScript.Selection.Scope
import Mathlib.Data.List.Forall2

namespace AnchorScript

/-!
# Carriers

Some records are made of several statements of one source: the first of them
that is of a certain kind carries the record, and the others contribute to it.
A list of sources has one such record for each source with a carrier. What is
said of a source here is said by looking at the whole document.
-/

namespace Document

/-- The statements of a source that are of a certain kind. -/
def contributions
    (document : Document)
    (contributes : Statement → Bool)
    (source : String) :
    List Statement :=
  document.statements.filter fun statement =>
    statement.source.raw = source && contributes statement

variable
  (document : Document)
  (carries : Statement → Bool)

end Document

end AnchorScript
