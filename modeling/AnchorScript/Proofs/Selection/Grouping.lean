import AnchorScript.Selection.Grouping
import AnchorScript.Selection.Scope

namespace AnchorScript

/-!
# Groups are selections

Grouping meets the statements one after the other, and every selection of one
source looks at all of them. Both give the same: a document has one group for
each of its sources, where the source first appears, and the group holds the
statements that come from it.
-/

/-- The sources of statements, each once, in the order in which they first appear. -/
def sourcesOf (statements : List Statement) : List String :=
  (statements.map fun statement => statement.source.raw).eraseDups

theorem mem_sourcesOf
    {statements : List Statement}
    {source : String} :
    source ∈ sourcesOf statements ↔
      ∃ statement ∈ statements, statement.source.raw = source := by
  rw [sourcesOf, List.mem_eraseDups, List.mem_map]

/-- The first source is followed by those of the statements of other sources. -/
theorem sourcesOf_cons
    (first : Statement)
    (rest : List Statement) :
    sourcesOf (first :: rest) =
      first.source.raw ::
        sourcesOf
          (rest.filter fun later => !later.comesFrom first.source.raw) := by
  rw [sourcesOf, List.map_cons, List.eraseDups_cons, List.filter_map]
  rfl

namespace SourceGroup

/-- The first group takes the statements of its source; the others form groups without it. -/
theorem foldl_add_cons
    (group : SourceGroup)
    (groups : List SourceGroup)
    (statements : List Statement) :
    statements.foldl (fun built statement => add statement built)
        (group :: groups) =
      ⟨group.source,
          group.statements ++
            statements.filter fun later => later.comesFrom group.source⟩ ::
        (statements.filter fun later => !later.comesFrom group.source).foldl
          (fun built statement => add statement built) groups := by
  induction statements generalizing group groups with
  | nil =>
      simp
  | cons first rest inductionHypothesis =>
      cases same : first.comesFrom group.source with
      | true =>
          have sameSource : group.source = first.source.raw := by
            simpa [Statement.comesFrom, eq_comm] using same
          rw [List.foldl_cons, add, if_pos sameSource, inductionHypothesis]
          simp [same]
      | false =>
          have otherSource : group.source ≠ first.source.raw := by
            simpa [Statement.comesFrom, eq_comm] using same
          rw [List.foldl_cons, add, if_neg otherSource, inductionHypothesis]
          simp [same]

/-- The first statement opens the first group. -/
theorem ofStatements_cons
    (first : Statement)
    (rest : List Statement) :
    ofStatements (first :: rest) =
      ⟨first.source.raw,
          (first :: rest).filter fun statement =>
            statement.comesFrom first.source.raw⟩ ::
        ofStatements
          (rest.filter fun later => !later.comesFrom first.source.raw) := by
  have opens : first.comesFrom first.source.raw = true := by
    simp [Statement.comesFrom]
  rw [ofStatements, List.foldl_cons, List.filter_cons, if_pos opens]
  exact foldl_add_cons ⟨first.source.raw, [first]⟩ [] rest

/-- There is one group for each source, with the statements that come from it. -/
theorem ofStatements_eq_map_sourcesOf (statements : List Statement) :
    ofStatements statements =
      (sourcesOf statements).map fun source =>
        ⟨source,
          statements.filter fun statement => statement.comesFrom source⟩ := by
  match statements with
  | [] =>
      rfl
  | first :: rest =>
      let others :=
        rest.filter fun later => !later.comesFrom first.source.raw
      rw [ofStatements_cons, sourcesOf_cons, List.map_cons,
        ofStatements_eq_map_sourcesOf others]
      congr 1
      apply List.map_congr_left
      intro source member
      obtain ⟨other, inOthers, otherSource⟩ := mem_sourcesOf.mp member
      have different : source ≠ first.source.raw := by
        have notFirst := (List.mem_filter.mp inOthers).2
        rw [← otherSource]
        simpa [Statement.comesFrom] using notFirst
      have notFromSource : ¬first.comesFrom source = true := by
        simpa [Statement.comesFrom] using different.symm
      rw [List.filter_cons, if_neg notFromSource, List.filter_filter]
      congr 1
      apply List.filter_congr
      intro later _
      by_cases same : later.source.raw = source
      · simp [Statement.comesFrom, same, different]
      · simp [Statement.comesFrom, same]
termination_by statements.length
decreasing_by exact Nat.lt_succ_of_le (List.length_filter_le _ _)

end SourceGroup

end AnchorScript
