import AnchorScript.Proofs.Page.ExplicitOrder
import AnchorScript.Proofs.Selection.Carriers

namespace AnchorScript

/-!
# The sections of the documentation

A source makes a section when one of its statements declares it, and all of its
links belong to the section, wherever they stand in the document. How statements
of different sources are mixed makes no difference, except for which source
comes first.
-/

namespace DocsSection

end DocsSection

end AnchorScript
