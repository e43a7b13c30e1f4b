import AnchorScript.Proofs.Selection.Grouping
import AnchorScript.Proofs.Selection.SlotTable
import Mathlib.Data.List.Basic
import Mathlib.Data.List.Induction

namespace AnchorScript

/-!
# Groups divide the statements

Every statement is in one group, as often as it was given, and every group is
the selection of its source. The sources follow each other as they first appear.
A table with an index makes the same groups and never misses a slot.
-/

/-- The source texts of statements, one for each statement. -/
def rawSources (statements : List Statement) : List String :=
  statements.map fun statement => statement.source.raw

/-- Items without their repetitions follow each other as they first appear. -/
theorem pairwise_idxOf_eraseDups (items : List String) :
    items.eraseDups.Pairwise fun earlier later =>
      items.idxOf earlier < items.idxOf later := by
  induction items using List.reverseRecOn with
  | nil =>
      exact List.Pairwise.nil
  | append_singleton items last inductionHypothesis =>
      have kept :
          items.eraseDups.Pairwise fun earlier later =>
            (items ++ [last]).idxOf earlier <
              (items ++ [last]).idxOf later := by
        refine inductionHypothesis.imp_of_mem ?_
        intro earlier later earlierMember laterMember before
        rwa [List.idxOf_append_of_mem (List.mem_eraseDups.mp earlierMember),
          List.idxOf_append_of_mem (List.mem_eraseDups.mp laterMember)]
      rw [List.eraseDups_append]
      by_cases known : last ∈ items
      · have nothingNew : [last].removeAll items = [] := by
          simp [List.removeAll, known]
        simpa [nothingNew] using kept
      · have isNew : [last].removeAll items = [last] := by
          simp [List.removeAll, known]
        rw [isNew]
        refine List.pairwise_append.mpr
          ⟨kept, List.pairwise_singleton _ _, ?_⟩
        intro earlier earlierMember later laterMember
        have member := List.mem_eraseDups.mp earlierMember
        have isLast : later = last := by
          simpa using laterMember
        rw [isLast, List.idxOf_append_of_mem member,
          List.idxOf_append_of_notMem known]
        exact Nat.lt_add_right _ (List.idxOf_lt_length_of_mem member)

namespace SourceGroup

/-- The groups divide the statements by their sources and keep their order. -/
structure Partitions
    (statements : List Statement)
    (groups : List SourceGroup) :
    Prop where
  nonempty : ∀ group ∈ groups, group.statements ≠ []
  distinct :
    groups.Pairwise fun earlier later => earlier.source ≠ later.source
  firstAppearance :
    groups.Pairwise fun earlier later =>
      (rawSources statements).idxOf earlier.source <
        (rawSources statements).idxOf later.source
  inOrder : ∀ group ∈ groups, group.statements.Sublist statements
  placed :
    ∀ statement ∈ statements,
      ∃ group ∈ groups,
        group.source = statement.source.raw ∧
          group.statements.count statement = statements.count statement ∧
          ∀ other ∈ groups, statement ∈ other.statements → other = group

/-- The groups are what is selected of a document by their sources. -/
structure AgreesWithSelection
    (document : Document)
    (groups : List SourceGroup) :
    Prop where
  selected :
    ∀ group ∈ groups, group.statements = document.comingFrom group.source
  absent :
    ∀ source,
      document.comingFrom source = [] ↔
        source ∉ groups.map SourceGroup.source

/-- A group holds the statements of a source that appears. -/
theorem mem_ofStatements
    {statements : List Statement}
    {group : SourceGroup} :
    group ∈ ofStatements statements ↔
      group.source ∈ sourcesOf statements ∧
        group.statements =
          statements.filter fun statement =>
            statement.comesFrom group.source := by
  rw [ofStatements_eq_map_sourcesOf, List.mem_map]
  constructor
  · rintro ⟨source, appears, rfl⟩
    exact ⟨appears, rfl⟩
  · rintro ⟨appears, selected⟩
    exact ⟨group.source, appears, by rw [← selected]⟩

theorem partitions_ofStatements (statements : List Statement) :
    Partitions statements (ofStatements statements) := by
  have appearing :
      (ofStatements statements).Pairwise fun earlier later =>
        (rawSources statements).idxOf earlier.source <
          (rawSources statements).idxOf later.source := by
    rw [ofStatements_eq_map_sourcesOf]
    exact List.pairwise_map.mpr
      (pairwise_idxOf_eraseDups (rawSources statements))
  constructor
  case nonempty =>
    intro group member
    obtain ⟨appears, selected⟩ := mem_ofStatements.mp member
    obtain ⟨statement, isStatement, same⟩ := mem_sourcesOf.mp appears
    have inGroup : statement ∈ group.statements := by
      rw [selected]
      exact List.mem_filter.mpr
        ⟨isStatement, by simp [Statement.comesFrom, same]⟩
    exact List.ne_nil_of_mem inGroup
  case distinct =>
    apply appearing.imp
    intro earlier later before same
    exact Nat.lt_irrefl _ (same ▸ before)
  case firstAppearance =>
    exact appearing
  case inOrder =>
    intro group member
    rw [(mem_ofStatements.mp member).2]
    exact List.filter_sublist
  case placed =>
    intro statement isStatement
    refine
      ⟨⟨statement.source.raw,
          statements.filter fun other =>
            other.comesFrom statement.source.raw⟩,
        mem_ofStatements.mpr
          ⟨mem_sourcesOf.mpr ⟨statement, isStatement, rfl⟩, rfl⟩,
        rfl, ?_, ?_⟩
    · exact List.count_filter (by simp [Statement.comesFrom])
    · rintro ⟨source, members⟩ isGroup inGroup
      obtain ⟨_, selected⟩ := mem_ofStatements.mp isGroup
      simp only at selected inGroup
      rw [selected] at inGroup
      have same : statement.source.raw = source := by
        simpa [Statement.comesFrom] using (List.mem_filter.mp inGroup).2
      rw [selected, same]

theorem agreesWithSelection_ofStatements (document : Document) :
    AgreesWithSelection document (ofStatements document.statements) where
  selected := by
    intro group member
    exact (mem_ofStatements.mp member).2
  absent := by
    intro source
    have keys :
        (ofStatements document.statements).map SourceGroup.source =
          sourcesOf document.statements := by
      rw [ofStatements_eq_map_sourcesOf, List.map_map]
      exact List.map_id _
    rw [keys, mem_sourcesOf, Document.comingFrom, List.filter_eq_nil_iff]
    simp [Statement.comesFrom]

/--
Grouping divides the statements, and a document into its selections by source.
An index over slots makes the same groups: every slot that it asks for is there.
-/
theorem ofStatements_partitions (statements : List Statement) :
    Partitions statements (ofStatements statements) ∧
      (∃ table,
        SlotTable.ofStatements? statements = some table ∧
          table.IsIndexed ∧
          table.groups = ofStatements statements) ∧
      ∀ document : Document,
        AgreesWithSelection document (ofStatements document.statements) :=
  ⟨partitions_ofStatements statements,
    SlotTable.exists_ofStatements? statements,
    agreesWithSelection_ofStatements⟩

end SourceGroup

end AnchorScript
