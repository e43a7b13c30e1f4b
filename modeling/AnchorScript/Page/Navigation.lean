import AnchorScript.Page.Lead
import AnchorScript.Selection.Arrangement
import AnchorScript.Selection.Grouping

namespace AnchorScript

/-!
# Navigation

The site has two menus, each made of the statements of one fixed source. The
documentation has a section for every source with a statement into the scope
`Section`; the statements of that source into the scope `Link` are its links.
-/

/-- A link of a menu or of a documentation section. -/
structure NavLink where
  label : String
  href : String
  order : Binary64
deriving Repr, DecidableEq

namespace NavLink

/-- The link that a statement carries; its target labels it by default. -/
def ofStatement
    (standardHref : String)
    (statement : Statement) :
    NavLink where
  label := statement.textOr "label" statement.target.name
  href := statement.textOr "href" standardHref
  order := statement.shownOrder

/-- The link as a record. -/
def toJson (link : NavLink) : Json :=
  .record
    [("label", .text link.label), ("href", .text link.href),
      ("order", Json.ofNumber link.order)]

end NavLink

/-- The links in the header and in the footer of the site. -/
structure Navigation where
  mainLinks : List NavLink
  footerLinks : List NavLink
deriving Repr, DecidableEq

namespace Navigation

/-- The links of one menu, in their explicit order. -/
def menu
    (document : Document)
    (source : String) :
    List NavLink :=
  (Statement.arrangeByOrder (document.comingFrom source)).map
    (NavLink.ofStatement "/")

/-- Both menus of a document. -/
def ofDocument (document : Document) : Navigation where
  mainLinks := menu document "Nav:Main"
  footerLinks := menu document "Nav:Footer"

/-- The menus as a record. -/
def toJson (navigation : Navigation) : Json :=
  .record
    [("mainLinks", .list (navigation.mainLinks.map NavLink.toJson)),
      ("footerLinks", .list (navigation.footerLinks.map NavLink.toJson))]

end Navigation

/-- A section of the documentation with its links. -/
structure DocsSection where
  label : String
  order : Binary64
  links : List NavLink
deriving Repr, DecidableEq

namespace DocsSection

/-- The section of a group, if one of its statements declares it. -/
def ofGroup? (group : SourceGroup) : Option DocsSection :=
  (group.statements.find? fun statement =>
      statement.target.isIn "Section").map fun declaration =>
    { label := declaration.textOr "label" ""
      order := declaration.shownOrder
      links :=
        (Statement.arrangeByOrder
          (group.statements.filter fun statement =>
            statement.target.isIn "Link")).map
          (NavLink.ofStatement "/docs") }

/-- The sections of a document, in their explicit order. -/
def allOf (document : Document) : List DocsSection :=
  arrange (fun left right => left.order.less right.order)
    ((SourceGroup.ofStatements document.statements).filterMap ofGroup?)

/-- The section as a record. -/
def toJson (docsSection : DocsSection) : Json :=
  .record
    [("label", .text docsSection.label),
      ("order", Json.ofNumber docsSection.order),
      ("links", .list (docsSection.links.map NavLink.toJson))]

end DocsSection

end AnchorScript
