import AnchorScript.Page.Lead
import AnchorScript.Selection.Arrangement

namespace AnchorScript

/-!
# The parts of a page

Features and content blocks are found by the scope of their target and stand in
their explicit order; code examples and questions stand in document order. What
a statement does not say has a default, so every statement found yields a part.
-/

/-- One feature of the product that a page presents. -/
structure Feature where
  title : String
  description : String
  icon : Option String
  order : Binary64
deriving Repr, DecidableEq

namespace Feature

/-- The feature that a statement carries; its target names it by default. -/
def ofStatement (statement : Statement) : Feature where
  title := statement.textOr "title" statement.target.name
  description := statement.textOr "description" ""
  icon := statement.text? "icon"
  order := statement.shownOrder

/-- The features of a document, in their explicit order. -/
def allOf (document : Document) : List Feature :=
  (Statement.arrangeByOrder (document.touching "Feature" .target)).map
    ofStatement

/-- The feature as a record. -/
def toJson (feature : Feature) : Json :=
  .record
    ([("title", .text feature.title),
        ("description", .text feature.description)] ++
      Json.optionalField "icon" feature.icon ++
      [("order", Json.ofNumber feature.order)])

end Feature

/-- A piece of code with a title. -/
structure CodeExample where
  title : String
  code : String
  language : String
deriving Repr, DecidableEq

namespace CodeExample

/-- Code is written on one line: a backslash with an `n` stands for a line feed. -/
def expandLineFeeds : List Char → List Char
  | [] => []
  | '\\' :: 'n' :: rest => '\n' :: expandLineFeeds rest
  | first :: rest => first :: expandLineFeeds rest

/-- The code example that a statement carries. -/
def ofStatement (statement : Statement) : CodeExample where
  title := statement.textOr "title" ""
  code :=
    String.ofList (expandLineFeeds (statement.textOr "code" "").toList)
  language := statement.textOr "language" "stl"

/-- The code examples of a document, in document order. -/
def allOf (document : Document) : List CodeExample :=
  (document.touching "CodeExample" .target).map ofStatement

/-- The code example as a record. -/
def toJson (codeExample : CodeExample) : Json :=
  .record
    [("title", .text codeExample.title), ("code", .text codeExample.code),
      ("language", .text codeExample.language)]

end CodeExample

/-- A titled paragraph, optionally with a link. -/
structure ContentBlock where
  title : String
  description : String
  href : Option String
  order : Binary64
deriving Repr, DecidableEq

namespace ContentBlock

/-- The block that a statement carries; its target names it by default. -/
def ofStatement (statement : Statement) : ContentBlock where
  title := statement.textOr "title" statement.target.name
  description := statement.textOr "description" ""
  href := statement.text? "href"
  order := statement.shownOrder

/-- The content blocks of a document, in their explicit order. -/
def allOf (document : Document) : List ContentBlock :=
  (Statement.arrangeByOrder (document.touching "Content" .target)).map
    ofStatement

/-- The block as a record. -/
def toJson (block : ContentBlock) : Json :=
  .record
    ([("title", .text block.title),
        ("description", .text block.description)] ++
      Json.optionalField "href" block.href ++
      [("order", Json.ofNumber block.order)])

end ContentBlock

/-- A frequent question with its answer. -/
structure Question where
  question : String
  answer : String
deriving Repr, DecidableEq

namespace Question

/-- The question that a statement carries; its source names it by default. -/
def ofStatement (statement : Statement) : Question where
  question := statement.textOr "question" statement.source.name
  answer := statement.textOr "answer" ""

/-- The questions of a document, in document order. -/
def allOf (document : Document) : List Question :=
  (document.touching "FAQ" .source).map ofStatement

/-- The question as a record. -/
def toJson (asked : Question) : Json :=
  .record
    [("question", .text asked.question), ("answer", .text asked.answer)]

end Question

end AnchorScript
