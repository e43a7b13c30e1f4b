import AnchorScript.Json.Document
import AnchorScript.Page.Bundle

namespace AnchorScript

/-!
# Loading calls

A loading call asks for a document, for the page of a document, or for one of
the four fixed contents of the site. Every call names one source, and what it
gives is a function of the document of that source.
-/

/-- The sources of the fixed contents, and the tools to present, in order. -/
structure SourceNames where
  navigation : String := "nav.stl"
  tools : String := "tools.stl"
  docsNavigation : String := "docs-nav.stl"
  comparison : String := "aso.stl"
  toolSources : List String := Tool.standardSources
deriving Repr, DecidableEq, Inhabited

/-- What can be asked for. -/
inductive Call where
  | document (name : String)
  | page (name : String)
  | navigation
  | tools
  | docsNavigation
  | comparison
deriving Repr, DecidableEq

/-- What a call gives. -/
inductive Content where
  | document (found : Document)
  | page (found : Page)
  | navigation (found : Navigation)
  | tools (found : ToolsPage)
  | docsNavigation (found : List DocsSection)
  | comparison (found : ComparisonPage)
deriving Repr, DecidableEq

namespace Call

/-- The name of the source that a call needs. -/
def sourceName (names : SourceNames) : Call → String
  | document name => name
  | page name => name
  | navigation => names.navigation
  | tools => names.tools
  | docsNavigation => names.docsNavigation
  | comparison => names.comparison

/-- What a call takes from the document of its source. -/
def contentOf
    (names : SourceNames)
    (call : Call)
    (source : Document) :
    Content :=
  match call with
  | document _ => .document source
  | page _ => .page (Page.ofDocument source)
  | navigation => .navigation (Navigation.ofDocument source)
  | tools => .tools (ToolsPage.ofDocument names.toolSources source)
  | docsNavigation => .docsNavigation (DocsSection.allOf source)
  | comparison => .comparison (ComparisonPage.ofDocument source)

end Call

/-- The content as JSON. -/
def Content.toJson : Content → Json
  | document found => found.toJson
  | page found => found.toJson
  | navigation found => found.toJson
  | tools found => found.toJson
  | docsNavigation found => .list (found.map DocsSection.toJson)
  | comparison found => found.toJson

end AnchorScript
