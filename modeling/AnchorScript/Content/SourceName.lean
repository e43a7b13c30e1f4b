import AnchorScript.Text.Cut

namespace AnchorScript

/-!
# Names of sources

A source name leads from the content directory to a file, segment by segment.
A name is inside when it cannot lead anywhere else: it is not empty, does not
start at the root, and never climbs. Empty segments and single dots stay where
they are and are harmless.
-/

namespace SourceName

/-- The segments between the slashes. -/
def segments (name : String) : List String :=
  (Text.pieces '/' name.toList).map String.ofList

/-- Whether a segment stays in its directory. -/
def staysPut (segment : String) : Bool :=
  segment = "" || segment = "."

/-- Whether the name can only lead into the content directory. -/
def isInside (name : String) : Bool :=
  name ≠ "" && name.toList.head? ≠ some '/' && !(segments name).contains ".."

end SourceName

end AnchorScript
