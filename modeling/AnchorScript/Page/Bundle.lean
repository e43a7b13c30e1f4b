import AnchorScript.Page.Article
import AnchorScript.Page.Comparison
import AnchorScript.Page.Navigation
import AnchorScript.Page.Tool

namespace AnchorScript

/-!
# Whole pages

A page bundles what its document says. Missing content never fails: a list is
empty, the hero is absent, and the metadata are the default ones.
-/

/-- An ordinary page. -/
structure Page where
  pageMeta : PageMeta
  hero : Option Hero
  features : List Feature
  codeExamples : List CodeExample
  content : List ContentBlock
  questions : List Question
deriving Repr, DecidableEq

namespace Page

/-- The page of a document. -/
def ofDocument (document : Document) : Page where
  pageMeta := PageMeta.ofDocument document
  hero := Hero.ofDocument? document
  features := Feature.allOf document
  codeExamples := CodeExample.allOf document
  content := ContentBlock.allOf document
  questions := Question.allOf document

/-- The page as a record. -/
def toJson (page : Page) : Json :=
  .record
    [("meta", page.pageMeta.toJson), ("hero", Hero.optionalJson page.hero),
      ("features", .list (page.features.map Feature.toJson)),
      ("codeExamples", .list (page.codeExamples.map CodeExample.toJson)),
      ("content", .list (page.content.map ContentBlock.toJson)),
      ("faq", .list (page.questions.map Question.toJson))]

end Page

/-- The page that presents the tools. -/
structure ToolsPage where
  pageMeta : PageMeta
  hero : Option Hero
  tools : List Tool
deriving Repr, DecidableEq

namespace ToolsPage

/-- The tools page of a document, with the tools of the listed sources. -/
def ofDocument
    (sources : List String)
    (document : Document) :
    ToolsPage where
  pageMeta := PageMeta.ofDocument document
  hero := Hero.ofDocument? document
  tools := Tool.allOf document sources

/-- The page as a record. -/
def toJson (page : ToolsPage) : Json :=
  .record
    [("meta", page.pageMeta.toJson), ("hero", Hero.optionalJson page.hero),
      ("tools", .list (page.tools.map Tool.toJson))]

end ToolsPage

/-- The page with the comparison and the levels. -/
structure ComparisonPage where
  pageMeta : PageMeta
  hero : Option Hero
  content : List ContentBlock
  questions : List Question
  rows : List ComparisonRow
  levels : List Level
deriving Repr, DecidableEq

namespace ComparisonPage

/-- The comparison page of a document. -/
def ofDocument (document : Document) : ComparisonPage where
  pageMeta := PageMeta.ofDocument document
  hero := Hero.ofDocument? document
  content := ContentBlock.allOf document
  questions := Question.allOf document
  rows := ComparisonRow.allOf document
  levels := Level.allOf document

/-- The page as a record. -/
def toJson (page : ComparisonPage) : Json :=
  .record
    [("meta", page.pageMeta.toJson), ("hero", Hero.optionalJson page.hero),
      ("content", .list (page.content.map ContentBlock.toJson)),
      ("faq", .list (page.questions.map Question.toJson)),
      ("compRows", .list (page.rows.map ComparisonRow.toJson)),
      ("levels", .list (page.levels.map Level.toJson))]

end ComparisonPage

end AnchorScript
