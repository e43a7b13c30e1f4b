import AnchorScript.Json.Basic
import AnchorScript.Selection.Arrangement
import AnchorScript.Selection.Scope

namespace AnchorScript

/-!
# What stands first on a page

The metadata of a page come from the first statement whose source is in the
scope `Meta`, its hero from the first one whose target is in the scope `Hero`.
A page without metadata has default ones; a page without a hero has none.
-/

namespace Statement

/-- The text of a modifier, or a default where there is none. -/
def textOr
    (statement : Statement)
    (key default : String) :
    String :=
  (statement.text? key).getD default

/-- The number of a modifier, or a default where there is none. -/
def numberOr
    (statement : Statement)
    (key : String)
    (default : Binary64) :
    Binary64 :=
  (statement.number? key).getD default

/-- The place that the record of a statement shows. -/
def shownOrder (statement : Statement) : Binary64 :=
  statement.numberOr orderKey defaultOrder

/-- Records show the places by which their statements are arranged. -/
@[simp] theorem shownOrder_eq_order (statement : Statement) :
    statement.shownOrder = statement.order :=
  rfl

end Statement

/-- Title, description and keywords of a page. -/
structure PageMeta where
  title : String
  description : String
  keywords : Option String
deriving Repr, DecidableEq

namespace PageMeta

/-- The metadata that a statement carries. -/
def ofStatement (statement : Statement) : PageMeta where
  title := statement.textOr "title" "STL"
  description := statement.textOr "description" ""
  keywords := statement.text? "keywords"

/-- The metadata of a page that says nothing about itself. -/
def standard : PageMeta where
  title := "STL"
  description := ""
  keywords := none

/-- The metadata of a document. -/
def ofDocument (document : Document) : PageMeta :=
  match (document.touching "Meta" .source).head? with
  | some statement => ofStatement statement
  | none => standard

/-- The metadata as a record. -/
def toJson (pageMeta : PageMeta) : Json :=
  .record
    ([("title", .text pageMeta.title),
        ("description", .text pageMeta.description)] ++
      Json.optionalField "keywords" pageMeta.keywords)

end PageMeta

/-- The large heading of a page, with an optional call to action. -/
structure Hero where
  title : String
  subtitle : String
  actionText : Option String
  actionHref : Option String
deriving Repr, DecidableEq

namespace Hero

/-- The hero that a statement carries. -/
def ofStatement (statement : Statement) : Hero where
  title := statement.textOr "title" ""
  subtitle := statement.textOr "subtitle" ""
  actionText := statement.text? "cta_text"
  actionHref := statement.text? "cta_href"

/-- The hero of a document, if it has one. -/
def ofDocument? (document : Document) : Option Hero :=
  (document.touching "Hero" .target).head?.map ofStatement

/-- The hero as a record. -/
def toJson (hero : Hero) : Json :=
  .record
    ([("title", .text hero.title), ("subtitle", .text hero.subtitle)] ++
      Json.optionalField "cta_text" hero.actionText ++
      Json.optionalField "cta_href" hero.actionHref)

/-- The hero as a record, or null where there is none. -/
def optionalJson : Option Hero → Json
  | some hero => hero.toJson
  | none => .null

end Hero

end AnchorScript
