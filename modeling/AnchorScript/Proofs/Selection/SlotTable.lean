import AnchorScript.Selection.SlotTable

namespace AnchorScript

/-!
# Every slot is there

The index of a table and its slots say the same: a source is found in a slot
exactly when the slot holds its group. Every statement keeps this, so that no
slot is ever asked for that is not there, and the table holds the groups that
looking through them would have made.
-/

namespace SourceGroup

/-- A statement of a new source makes a new group at the end. -/
theorem add_of_absent
    {statement : Statement}
    {groups : List SourceGroup}
    (absent : ∀ group ∈ groups, group.source ≠ statement.source.raw) :
    add statement groups =
      groups ++ [⟨statement.source.raw, [statement]⟩] := by
  induction groups with
  | nil =>
      rfl
  | cons group rest inductionHypothesis =>
      obtain ⟨notFirst, notLater⟩ := List.forall_mem_cons.mp absent
      rw [add, if_neg notFirst, inductionHypothesis notLater,
        List.cons_append]

/-- A statement of a known source goes into the one slot of the source. -/
theorem add_of_slot
    {statement : Statement}
    {groups : List SourceGroup}
    {slot : Nat}
    {group : SourceGroup}
    (inSlot : groups[slot]? = some group)
    (unique :
      ∀ other,
        (groups.map SourceGroup.source)[other]? =
            some statement.source.raw ↔
          other = slot) :
    add statement groups =
      groups.set slot ⟨group.source, group.statements ++ [statement]⟩ := by
  induction groups generalizing slot with
  | nil =>
      simp at inSlot
  | cons first rest inductionHypothesis =>
      cases slot with
      | zero =>
          have isFirst : first = group := by
            simpa using inSlot
          have same : first.source = statement.source.raw := by
            simpa using (unique 0).mpr rfl
          rw [add, if_pos same, List.set_cons_zero, isFirst]
      | succ slot =>
          have notFirst : first.source ≠ statement.source.raw := by
            intro same
            have isZero := (unique 0).mp (by simp [same])
            exact absurd isZero (Nat.succ_ne_zero slot).symm
          have uniqueInRest
              (other : Nat) :
              (rest.map SourceGroup.source)[other]? =
                  some statement.source.raw ↔
                other = slot := by
            simpa using unique (other + 1)
          have inRest : rest[slot]? = some group := by
            simpa using inSlot
          rw [add, if_neg notFirst, List.set_cons_succ,
            inductionHypothesis inRest uniqueInRest]

end SourceGroup

namespace SlotTable

/-- A source is found in a slot exactly when the slot holds its group. -/
def IsIndexed (table : SlotTable) : Prop :=
  ∀ source slot,
    table.index.lookup source = some slot ↔
      (table.groups.map SourceGroup.source)[slot]? = some source

theorem isIndexed_empty : empty.IsIndexed := by
  intro source slot
  simp [empty]

/-- A source that is not found has no group. -/
theorem IsIndexed.source_ne
    {table : SlotTable}
    {source : String}
    (indexed : table.IsIndexed)
    (notFound : table.index.lookup source = none) :
    ∀ group ∈ table.groups, group.source ≠ source := by
  intro group member same
  obtain ⟨slot, inSlot⟩ :=
    List.mem_iff_getElem?.mp
      (List.mem_map_of_mem (f := SourceGroup.source) member)
  rw [same] at inSlot
  have found := (indexed source slot).mpr inSlot
  rw [notFound] at found
  cases found

/-- A source has at most one slot. -/
theorem IsIndexed.slot_unique
    {table : SlotTable}
    {source : String}
    {slot : Nat}
    (indexed : table.IsIndexed)
    (found : table.index.lookup source = some slot)
    (other : Nat) :
    (table.groups.map SourceGroup.source)[other]? = some source ↔
      other = slot := by
  rw [← indexed, found, Option.some.injEq, eq_comm]

private theorem getElem?_concat_eq_some_iff
    {sources : List String}
    {last source : String}
    {slot : Nat} :
    (sources ++ [last])[slot]? = some source ↔
      sources[slot]? = some source ∨
        slot = sources.length ∧ last = source := by
  rw [List.getElem?_append]
  split
  · rename_i before
    simp [Nat.ne_of_lt before]
  · rename_i notBefore
    rw [List.getElem?_eq_none (Nat.not_lt.mp notBefore),
      List.getElem?_singleton]
    by_cases isLast : slot = sources.length
    · simp [isLast]
    · have behind : slot - sources.length ≠ 0 := by omega
      simp [isLast, behind]

/-- A new source has the slot that is opened for it, and the others keep theirs. -/
theorem IsIndexed.opened
    {table : SlotTable}
    {source : String}
    (indexed : table.IsIndexed)
    (notFound : table.index.lookup source = none)
    (statements : List Statement) :
    IsIndexed
      ⟨(source, table.groups.length) :: table.index,
        table.groups ++ [⟨source, statements⟩]⟩ := by
  intro sought slot
  rw [List.map_append, List.map_singleton, getElem?_concat_eq_some_iff,
    ← indexed, List.length_map, List.lookup_cons]
  by_cases isNew : sought = source
  · subst isNew
    simp [notFound, eq_comm]
  · have different : (sought == source) = false :=
      beq_false_of_ne isNew
    simp [different, Ne.symm isNew]

/-- Statements change nothing about the slots of their sources. -/
theorem IsIndexed.filled
    {table : SlotTable}
    {slot : Nat}
    {group : SourceGroup}
    (indexed : table.IsIndexed)
    (inSlot : table.groups[slot]? = some group)
    (statements : List Statement) :
    IsIndexed
      { table with
        groups := table.groups.set slot ⟨group.source, statements⟩ } := by
  obtain ⟨bound, isGroup⟩ := List.getElem?_eq_some_iff.mp inSlot
  have sameSources :
      (table.groups.set slot ⟨group.source, statements⟩).map
          SourceGroup.source =
        table.groups.map SourceGroup.source := by
    apply List.ext_getElem?
    intro other
    rw [List.map_set, List.getElem?_set, List.getElem?_map]
    by_cases isSlot : slot = other
    · subst isSlot
      simp [bound, isGroup]
    · simp [isSlot]
  intro source other
  rw [sameSources]
  exact indexed source other

/--
The slot of every statement is there. The statement goes into the group that
looking through the groups would have found, and the table stays indexed.
-/
theorem IsIndexed.add?
    {table : SlotTable}
    (indexed : table.IsIndexed)
    (statement : Statement) :
    ∃ filled,
      table.add? statement = some filled ∧
        filled.IsIndexed ∧
        filled.groups = SourceGroup.add statement table.groups := by
  cases found : table.index.lookup statement.source.raw with
  | some slot =>
      obtain ⟨group, inSlot, same⟩ :=
        Option.map_eq_some_iff.mp
          (List.getElem?_map.symm.trans ((indexed _ slot).mp found))
      refine
        ⟨_, ?_, indexed.filled inSlot (group.statements ++ [statement]), ?_⟩
      · simp [SlotTable.add?, slotOf, found, putInto?, inSlot]
      · exact
          (SourceGroup.add_of_slot inSlot (indexed.slot_unique found)).symm
  | none =>
      refine ⟨_, ?_, indexed.opened found [statement], ?_⟩
      · simp [SlotTable.add?, slotOf, found, putInto?]
      · exact (SourceGroup.add_of_absent (indexed.source_ne found)).symm

/-- No run over statements ever asks for a slot that is not there. -/
theorem IsIndexed.foldlM_add?
    {table : SlotTable}
    (indexed : table.IsIndexed)
    (statements : List Statement) :
    ∃ filled,
      statements.foldlM SlotTable.add? table = some filled ∧
        filled.IsIndexed ∧
        filled.groups =
          statements.foldl
            (fun groups statement => SourceGroup.add statement groups)
            table.groups := by
  induction statements generalizing table with
  | nil =>
      exact ⟨table, rfl, indexed, rfl⟩
  | cons first rest inductionHypothesis =>
      obtain ⟨next, added, nextIndexed, nextGroups⟩ := indexed.add? first
      obtain ⟨filled, run, filledIndexed, filledGroups⟩ :=
        inductionHypothesis nextIndexed
      refine ⟨filled, ?_, filledIndexed, ?_⟩
      · rw [List.foldlM_cons, added]
        exact run
      · rw [filledGroups, nextGroups, List.foldl_cons]

/-- Statements have a table, and its groups are the groups of the statements. -/
theorem exists_ofStatements? (statements : List Statement) :
    ∃ table,
      ofStatements? statements = some table ∧
        table.IsIndexed ∧
        table.groups = SourceGroup.ofStatements statements :=
  isIndexed_empty.foldlM_add? statements

end SlotTable

end AnchorScript
