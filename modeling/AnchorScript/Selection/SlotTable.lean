import AnchorScript.Selection.Grouping

namespace AnchorScript

/-!
# Grouping with an index

A table keeps groups in slots and finds the slot of a source by an index instead
of looking through the groups. A statement of a new source opens the next slot.
What is put into a slot that is not there is lost, and then there is no table.
-/

/-- Groups in slots, and for each source the slot of its group. -/
structure SlotTable where
  index : List (String × Nat)
  groups : List SourceGroup
deriving Repr, DecidableEq

namespace SlotTable

/-- No groups. -/
def empty : SlotTable :=
  ⟨[], []⟩

/-- The slot of a source, which is opened first if the source has none. -/
def slotOf
    (table : SlotTable)
    (source : String) :
    SlotTable × Nat :=
  match table.index.lookup source with
  | some slot => (table, slot)
  | none =>
      let slot := table.groups.length
      (⟨(source, slot) :: table.index, table.groups ++ [⟨source, []⟩]⟩, slot)

/-- Put a statement at the end of the group in a slot. -/
def putInto?
    (table : SlotTable)
    (slot : Nat)
    (statement : Statement) :
    Option SlotTable :=
  table.groups[slot]?.map fun group =>
    { table with
      groups :=
        table.groups.set slot
          ⟨group.source, group.statements ++ [statement]⟩ }

/-- Put a statement into the slot of its source. -/
def add?
    (table : SlotTable)
    (statement : Statement) :
    Option SlotTable :=
  let (opened, slot) := table.slotOf statement.source.raw
  opened.putInto? slot statement

/-- The table of statements, if every slot that is asked for is there. -/
def ofStatements? (statements : List Statement) : Option SlotTable :=
  statements.foldlM add? empty

end SlotTable

end AnchorScript
