import AnchorScript.Page.Article
import AnchorScript.Page.Comparison
import AnchorScript.Page.Navigation
import AnchorScript.Proofs.Reader.WellFormed
import AnchorScript.Proofs.Selection.Arrangement
import AnchorScript.Proofs.Selection.Grouping

namespace AnchorScript

/-!
# Records in their explicit order

The statements of a list are arranged by their places, and each becomes one
record that shows its place again. As no statement that was read has a place
that cannot be compared, the records of every list stand in the order that they
show, and those that show the same place stand as in the document.
-/

/-- The place of a statement that was read is a number. -/
theorem Statement.IsWellFormed.isNaN_order
    {statement : Statement}
    (wellFormed : statement.IsWellFormed) :
    statement.order.isNaN = false := by
  unfold Statement.order
  cases found :
    (statement.modifier? Statement.orderKey).bind Value.number? with
  | none =>
      exact Binary64.isNaN_ofNumeral _
  | some number =>
      obtain ⟨value, isValue, isNumber⟩ := Option.bind_eq_some_iff.mp found
      cases value with
      | number binary =>
          cases isNumber
          exact wellFormed.of_modifier? isValue
      | flag truth =>
          cases isNumber
      | text written =>
          cases isNumber

/-- Records that show the places of their statements are arranged with them. -/
theorem isArrangement_records
    {ρ : Type}
    (order : ρ → Binary64)
    (record : Statement → ρ)
    (shows : ∀ statement, order (record statement) = statement.order)
    {selected : List Statement}
    (numbers : ∀ statement ∈ selected, statement.order.isNaN = false) :
    IsArrangement order (selected.map record)
      ((Statement.arrangeByOrder selected).map record) := by
  have arranged :
      (Statement.arrangeByOrder selected).map record =
        arrange (fun left right => (order left).less (order right))
          (selected.map record) := by
    rw [arrange_map, Statement.arrangeByOrder]
    simp only [shows]
  rw [arranged]
  apply isArrangement_arrange
  intro shown member
  obtain ⟨statement, isSelected, rfl⟩ := List.mem_map.mp member
  rw [shows]
  exact numbers statement isSelected

namespace DocsSection

/-- The section that the statements of one source make, if one of them declares it. -/
def ofSource?
    (document : Document)
    (source : String) :
    Option DocsSection :=
  ofGroup? ⟨source, document.comingFrom source⟩

/-- The links of the section of a source, as they stand in the document. -/
def linksFrom
    (document : Document)
    (source : String) :
    List NavLink :=
  (document.statements.filter fun statement =>
      statement.source.raw = source ∧
        statement.target.scope = some "Link").map
    (NavLink.ofStatement "/docs")

/-- A source has a section when one of its statements declares it. -/
theorem isSome_ofSource?_iff
    {document : Document}
    {source : String} :
    (ofSource? document source).isSome ↔
      ∃ statement ∈ document.statements,
        statement.source.raw = source ∧
          statement.target.scope = some "Section" := by
  simp [ofSource?, ofGroup?, Document.comingFrom, Statement.comesFrom,
    Anchor.isIn]

/-- The sections of a document are those of its sources, arranged. -/
theorem allOf_eq_arrange (document : Document) :
    allOf document =
      arrange (fun left right => left.order.less right.order)
        ((sourcesOf document.statements).filterMap (ofSource? document)) := by
  rw [allOf, SourceGroup.ofStatements_eq_map_sourcesOf,
    List.filterMap_map]
  rfl

/-- A section has the place of the statement that declares it, and arranges its links. -/
theorem of_ofSource?_eq_some
    {document : Document}
    {source : String}
    {docsSection : DocsSection}
    (found : ofSource? document source = some docsSection) :
    (∃ declaration ∈ document.comingFrom source,
        docsSection.order = declaration.order) ∧
      docsSection.links =
        (Statement.arrangeByOrder
          (document.statements.filter fun statement =>
            statement.source.raw = source ∧
              statement.target.scope = some "Link")).map
          (NavLink.ofStatement "/docs") := by
  obtain ⟨declaration, isFirst, rfl⟩ := Option.map_eq_some_iff.mp found
  refine ⟨⟨declaration, List.mem_of_find?_eq_some isFirst, rfl⟩, ?_⟩
  simp only [Document.comingFrom, List.filter_filter, Statement.comesFrom,
    Anchor.isIn, Bool.decide_and, Bool.and_comm]

end DocsSection

/-- The levels are declared by the sources in their scope that are named as one. -/
theorem Level.filter_isDeclaredBy (document : Document) :
    (document.touching "ASO" .source).filter Level.isDeclaredBy =
      document.statements.filter fun statement =>
        statement.source.scope = some "ASO" ∧
          "Level_".toList <+: statement.source.name.toList := by
  rw [Document.touching, List.filter_filter]
  apply List.filter_congr
  intro statement _
  rw [Bool.eq_iff_iff, Bool.and_eq_true, decide_eq_true_iff, and_comm]
  exact and_congr decide_eq_true_iff List.isPrefixOf_iff_prefix

namespace Document

/--
Every list of records that show a place has one record for each statement that
is selected for it, in the order that they show, ties as in the document. The
sections of the documentation stand in this way too, one for each source that
declares it, ties as their sources first appear, and any two places of the
document can be compared.
-/
structure ListsInOrder (document : Document) : Prop where
  features :
    IsArrangement Feature.order
      ((document.statements.filter fun statement =>
          statement.target.scope = some "Feature").map Feature.ofStatement)
      (Feature.allOf document)
  content :
    IsArrangement ContentBlock.order
      ((document.statements.filter fun statement =>
          statement.target.scope = some "Content").map
        ContentBlock.ofStatement)
      (ContentBlock.allOf document)
  mainLinks :
    IsArrangement NavLink.order
      ((document.statements.filter fun statement =>
          statement.source.raw = "Nav:Main").map (NavLink.ofStatement "/"))
      (Navigation.ofDocument document).mainLinks
  footerLinks :
    IsArrangement NavLink.order
      ((document.statements.filter fun statement =>
          statement.source.raw = "Nav:Footer").map (NavLink.ofStatement "/"))
      (Navigation.ofDocument document).footerLinks
  rows :
    IsArrangement ComparisonRow.order
      ((document.statements.filter fun statement =>
          statement.source.raw = "ASO:Comparison").map
        ComparisonRow.ofStatement)
      (ComparisonRow.allOf document)
  levels :
    IsArrangement Level.order
      ((document.statements.filter fun statement =>
          statement.source.scope = some "ASO" ∧
            "Level_".toList <+: statement.source.name.toList).map
        Level.ofStatement)
      (Level.allOf document)
  sections :
    IsArrangement DocsSection.order
      ((sourcesOf document.statements).filterMap
        (DocsSection.ofSource? document))
      (DocsSection.allOf document)
  sectionSources :
    ∀ source,
      (DocsSection.ofSource? document source).isSome ↔
        ∃ statement ∈ document.statements,
          statement.source.raw = source ∧
            statement.target.scope = some "Section"
  sectionLinks :
    ∀ source docsSection,
      DocsSection.ofSource? document source = some docsSection →
      IsArrangement NavLink.order
        (DocsSection.linksFrom document source) docsSection.links
  comparable :
    ∀ left ∈ document.statements,
      ∀ right ∈ document.statements,
        left.order.less right.order = true ∨
          left.order.agrees right.order = true ∨
          right.order.less left.order = true

/-- The lists of a document are in order when its places can be compared. -/
theorem listsInOrder_of_numbers
    {document : Document}
    (numbers :
      ∀ statement ∈ document.statements, statement.order.isNaN = false) :
    document.ListsInOrder := by
  have amongSelected
      (selects : Statement → Bool) :
      ∀ statement ∈ document.statements.filter selects,
        statement.order.isNaN = false :=
    fun statement member => numbers statement (List.mem_of_mem_filter member)
  constructor
  case features =>
    exact isArrangement_records Feature.order Feature.ofStatement
      Statement.shownOrder_eq_order (amongSelected _)
  case content =>
    exact isArrangement_records ContentBlock.order ContentBlock.ofStatement
      Statement.shownOrder_eq_order (amongSelected _)
  case mainLinks =>
    exact isArrangement_records NavLink.order (NavLink.ofStatement "/")
      Statement.shownOrder_eq_order (amongSelected _)
  case footerLinks =>
    exact isArrangement_records NavLink.order (NavLink.ofStatement "/")
      Statement.shownOrder_eq_order (amongSelected _)
  case rows =>
    exact isArrangement_records ComparisonRow.order ComparisonRow.ofStatement
      Statement.shownOrder_eq_order (amongSelected _)
  case levels =>
    rw [Level.allOf, Level.filter_isDeclaredBy]
    exact isArrangement_records Level.order Level.ofStatement
      Statement.shownOrder_eq_order (amongSelected _)
  case sections =>
    rw [DocsSection.allOf_eq_arrange]
    apply isArrangement_arrange
    intro docsSection member
    obtain ⟨source, _, found⟩ := List.mem_filterMap.mp member
    obtain ⟨⟨declaration, declares, same⟩, _⟩ :=
      DocsSection.of_ofSource?_eq_some found
    rw [same]
    exact amongSelected _ declaration declares
  case sectionSources =>
    exact fun _ => DocsSection.isSome_ofSource?_iff
  case sectionLinks =>
    intro source docsSection found
    rw [(DocsSection.of_ofSource?_eq_some found).2]
    exact isArrangement_records NavLink.order (NavLink.ofStatement "/docs")
      Statement.shownOrder_eq_order (amongSelected _)
  case comparable =>
    intro left leftMember right rightMember
    exact Binary64.less_or_agrees_or_less
      (numbers left leftMember) (numbers right rightMember)

/-- Whatever the text, its lists are in order. -/
theorem ofText_listsInOrder (text : String) :
    (ofText text).ListsInOrder :=
  listsInOrder_of_numbers fun statement member =>
    ((isWellFormed_ofText text).statements statement member).isNaN_order

end Document

end AnchorScript
