import AnchorScript.Page.Article
import AnchorScript.Page.Comparison
import AnchorScript.Page.Navigation
import AnchorScript.Proofs.Page.ExplicitOrder
import AnchorScript.Proofs.Selection.Ties

namespace AnchorScript

/-!
# Shuffled documents

Six lists of records stand in the order that their statements say. Such a list
depends on how the document is put together only where its statements leave the
order open: shuffling a document changes nothing but the order of ties.
-/

/-- The lists of records that stand in an explicit order. -/
inductive OrderedList where
  | features
  | content
  | mainLinks
  | footerLinks
  | rows
  | levels
deriving Repr, DecidableEq

namespace OrderedList

/-- What the list holds. -/
def Record : OrderedList → Type
  | .features => Feature
  | .content => ContentBlock
  | .mainLinks => NavLink
  | .footerLinks => NavLink
  | .rows => ComparisonRow
  | .levels => Level

/-- The list of a document. -/
def recordsOf
    (document : Document) :
    (list : OrderedList) → List list.Record
  | .features => Feature.allOf document
  | .content => ContentBlock.allOf document
  | .mainLinks => (Navigation.ofDocument document).mainLinks
  | .footerLinks => (Navigation.ofDocument document).footerLinks
  | .rows => ComparisonRow.allOf document
  | .levels => Level.allOf document

/-- A statement is selected for the list. -/
def selects : OrderedList → Statement → Bool
  | .features, statement => statement.target.scope = some "Feature"
  | .content, statement => statement.target.scope = some "Content"
  | .mainLinks, statement => statement.source.raw = "Nav:Main"
  | .footerLinks, statement => statement.source.raw = "Nav:Footer"
  | .rows, statement => statement.source.raw = "ASO:Comparison"
  | .levels, statement =>
      statement.source.scope = some "ASO" ∧
        "Level_".toList <+: statement.source.name.toList

/-- The statements that are selected for the list, as they stand. -/
def selectedFrom
    (document : Document)
    (list : OrderedList) :
    List Statement :=
  document.statements.filter list.selects

/-- The record that a selected statement becomes. -/
def record : (list : OrderedList) → Statement → list.Record
  | .features => Feature.ofStatement
  | .content => ContentBlock.ofStatement
  | .mainLinks => NavLink.ofStatement "/"
  | .footerLinks => NavLink.ofStatement "/"
  | .rows => ComparisonRow.ofStatement
  | .levels => Level.ofStatement

/-- Each list is made of the statements that are selected for it, arranged. -/
theorem recordsOf_eq_map
    (document : Document)
    (list : OrderedList) :
    list.recordsOf document =
      (Statement.arrangeByOrder (list.selectedFrom document)).map
        list.record := by
  cases list with
  | features => rfl
  | content => rfl
  | mainLinks => rfl
  | footerLinks => rfl
  | rows => rfl
  | levels =>
      rw [recordsOf, Level.allOf, Level.filter_isDeclaredBy]
      rfl

/-- The selected statements that say the same place stand in the same order in both documents. -/
def KeepsTies
    (left right : Document)
    (list : OrderedList) :
    Prop :=
  ∀ statement ∈ list.selectedFrom left,
    tiedAt Statement.order statement.order (list.selectedFrom left) =
      tiedAt Statement.order statement.order (list.selectedFrom right)

/-- No two selected statements say the same place. -/
def IsUntied
    (document : Document)
    (list : OrderedList) :
    Prop :=
  (list.selectedFrom document).Pairwise fun first second =>
    first.order.agrees second.order = false

/--
Explicit order goes before the order of the document. Two documents with the
same statements, in whatever order, have the same lists, each of which needs
only its own ties to stand in the same order, or to have none.
-/
theorem recordsOf_shuffled
    {left right : Document}
    (shuffled : left.statements.Perm right.statements)
    (numbers :
      ∀ statement ∈ left.statements, statement.order.isNaN = false)
    (list : OrderedList) :
    (list.KeepsTies left right →
        list.recordsOf left = list.recordsOf right) ∧
      (list.IsUntied left →
        list.recordsOf left = list.recordsOf right) := by
  have selected :
      (list.selectedFrom left).Perm (list.selectedFrom right) :=
    shuffled.filter _
  have ofTies
      (ties : list.KeepsTies left right) :
      list.recordsOf left = list.recordsOf right := by
    rw [recordsOf_eq_map, recordsOf_eq_map]
    apply congrArg (List.map list.record)
    apply arrange_eq_of_perm _ selected ties
    intro statement member
    exact numbers statement (List.mem_of_mem_filter member)
  refine ⟨ofTies, ?_⟩
  intro untied
  apply ofTies
  intro statement _
  exact tiedAt_eq_of_distinct selected untied statement.order

/--
Both zeros are one place. The main links keep this tie and the features have
none, while all statements change places.
-/
theorem recordsOf_shuffled_zeros :
    let placed (source target : String) (order : Binary64) : Statement :=
      ⟨Anchor.ofText source.toList, Anchor.ofText target.toList,
        Modifiers.ofList [(Statement.orderKey, .number order)]⟩
    let left : Document :=
      ⟨[placed "Nav:Main" "a" ⟨true, 0, 0⟩,
          placed "F" "Feature:p" ⟨false, 1024, 0⟩,
          placed "Nav:Main" "b" ⟨true, 2047, 0⟩,
          placed "Nav:Main" "c" ⟨false, 0, 0⟩,
          placed "F" "Feature:q" ⟨false, 1023, 0⟩], []⟩
    let right : Document :=
      ⟨[placed "F" "Feature:q" ⟨false, 1023, 0⟩,
          placed "Nav:Main" "b" ⟨true, 2047, 0⟩,
          placed "Nav:Main" "a" ⟨true, 0, 0⟩,
          placed "F" "Feature:p" ⟨false, 1024, 0⟩,
          placed "Nav:Main" "c" ⟨false, 0, 0⟩], []⟩
    left.statements.Perm right.statements ∧
      (∀ statement ∈ left.statements, statement.order.isNaN = false) ∧
      mainLinks.KeepsTies left right ∧
      mainLinks.recordsOf left = mainLinks.recordsOf right ∧
      features.IsUntied left ∧
      features.recordsOf left = features.recordsOf right := by
  intro placed left right
  have shuffled : left.statements.Perm right.statements := by
    decide +kernel
  have numbers :
      ∀ statement ∈ left.statements, statement.order.isNaN = false := by
    decide +kernel
  have ties : mainLinks.KeepsTies left right := by
    unfold KeepsTies
    decide +kernel
  have untied : features.IsUntied left := by
    unfold IsUntied
    decide +kernel
  exact
    ⟨shuffled, numbers, ties,
      (recordsOf_shuffled shuffled numbers mainLinks).1 ties,
      untied, (recordsOf_shuffled shuffled numbers features).2 untied⟩

end OrderedList

end AnchorScript
