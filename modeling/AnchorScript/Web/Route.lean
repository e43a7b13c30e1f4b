import AnchorScript.Content.Call
import AnchorScript.Text.Cut
import AnchorScript.Text.Percent

namespace AnchorScript

/-!
# Routes

Every loading call has a path. Paths are matched exactly, segment by segment,
and before they are decoded, so that a coded slash belongs to a name; a query
is no part of the path, and neither are a scheme and a host in front of it. A
name in a path is one segment that is not empty.
-/

/-- A path that is answered; names stand as they are written in it. -/
inductive Route where
  | document (written : String)
  | page (written : String)
  | navigation
  | tools
  | docsNavigation
  | comparison
deriving Repr, DecidableEq

namespace Route

/-- The characters of a scheme. -/
def inScheme (character : Char) : Bool :=
  character.isAlphanum || ['+', '-', '.', '~'].contains character

/-- The characters that end a host. -/
def endsHost (character : Char) : Bool :=
  ['/', '?', '#'].contains character

/-- A target without the scheme and the host, if it starts with them. -/
def withoutHost (target : List Char) : List Char :=
  match target.dropWhile inScheme with
  | ':' :: '/' :: '/' :: rest => rest.dropWhile fun character => !endsHost character
  | _ => target

/-- The path of a target, without the query and the fragment. -/
def pathOf (target : String) : List Char :=
  (withoutHost target.toList).takeWhile fun character =>
    character ≠ '?' && character ≠ '#'

/-- The route of a request target. -/
def ofTarget? (target : String) : Option Route :=
  match (Text.pieces '/' (pathOf target)).map String.ofList with
  | ["", "v1", "documents", written] =>
      if written = "" then none else some (.document written)
  | ["", "v1", "pages", written] =>
      if written = "" then none else some (.page written)
  | ["", "v1", "nav"] => some .navigation
  | ["", "v1", "tools"] => some .tools
  | ["", "v1", "docs-nav"] => some .docsNavigation
  | ["", "v1", "aso"] => some .comparison
  | _ => none

/-- The call that a route stands for, unless its name does not decode. -/
def call? : Route → Option Call
  | document written => (Text.percentDecoded? written).map Call.document
  | page written => (Text.percentDecoded? written).map Call.page
  | navigation => some .navigation
  | tools => some .tools
  | docsNavigation => some .docsNavigation
  | comparison => some .comparison

/-- What a route serves, in one word. -/
def subject : Route → String
  | document _ => "document"
  | page _ => "page"
  | navigation => "nav"
  | tools => "tools"
  | docsNavigation => "docs-nav"
  | comparison => "aso"

end Route

end AnchorScript
