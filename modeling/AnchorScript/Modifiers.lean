import AnchorScript.Value

namespace AnchorScript

/-!
# Modifiers

Modifiers are a finite map from keys to values. The entries are kept in
ascending order of their keys, each key once, so that modifiers which answer
every lookup alike are the same modifiers. A later write of a key wins.
-/

/-- Write a key into entries in ascending order, replacing the value it has. -/
def writeEntry
    (key : String)
    (value : Value) :
    List (String × Value) → List (String × Value)
  | [] => [(key, value)]
  | entry :: rest =>
      if key < entry.1 then
        (key, value) :: entry :: rest
      else if key = entry.1 then
        (key, value) :: rest
      else
        entry :: writeEntry key value rest

/-- An entry after a write is the one written or was there before. -/
theorem mem_writeEntry
    {key : String}
    {value : Value}
    {entries : List (String × Value)}
    {entry : String × Value}
    (member : entry ∈ writeEntry key value entries) :
    entry = (key, value) ∨ entry ∈ entries := by
  induction entries with
  | nil =>
      simpa [writeEntry] using member
  | cons first rest inductionHypothesis =>
      simp only [writeEntry] at member
      split at member
      · simpa using member
      · split at member
        · rcases List.mem_cons.mp member with isNew | inRest
          · exact Or.inl isNew
          · exact Or.inr (List.mem_cons_of_mem _ inRest)
        · rcases List.mem_cons.mp member with isFirst | inRest
          · exact Or.inr (isFirst ▸ List.mem_cons_self)
          · rcases inductionHypothesis inRest with isNew | before
            · exact Or.inl isNew
            · exact Or.inr (List.mem_cons_of_mem _ before)

/-- Writing keeps the keys ascending. -/
theorem ascending_writeEntry
    {key : String}
    {value : Value}
    {entries : List (String × Value)}
    (ascending : entries.Pairwise fun left right => left.1 < right.1) :
    (writeEntry key value entries).Pairwise
      fun left right => left.1 < right.1 := by
  induction entries with
  | nil =>
      simp [writeEntry]
  | cons first rest inductionHypothesis =>
      obtain ⟨firstLeast, restAscending⟩ := List.pairwise_cons.mp ascending
      simp only [writeEntry]
      split
      · rename_i keyLess
        refine List.pairwise_cons.mpr ⟨?_, ascending⟩
        intro entry member
        rcases List.mem_cons.mp member with isFirst | inRest
        · exact isFirst ▸ keyLess
        · exact String.lt_trans keyLess (firstLeast entry inRest)
      · rename_i notLess
        split
        · rename_i sameKey
          exact List.pairwise_cons.mpr
            ⟨fun entry member => sameKey ▸ firstLeast entry member,
              restAscending⟩
        · rename_i otherKey
          refine List.pairwise_cons.mpr
            ⟨?_, inductionHypothesis restAscending⟩
          intro entry member
          rcases mem_writeEntry member with isNew | before
          · subst isNew
            refine Decidable.byContradiction fun notGreater => ?_
            exact otherKey
              (String.le_antisymm
                (String.not_lt.mp notGreater) (String.not_lt.mp notLess))
          · exact firstLeast entry before

/-- A map from keys to values, in ascending order of the keys. -/
structure Modifiers where
  entries : List (String × Value)
  ascending : entries.Pairwise fun left right => left.1 < right.1
deriving Repr, DecidableEq

namespace Modifiers

/-- No keys. -/
def empty : Modifiers :=
  ⟨[], List.Pairwise.nil⟩

/-- Write one key; an earlier value of the key is lost. -/
def insert
    (modifiers : Modifiers)
    (key : String)
    (value : Value) :
    Modifiers :=
  ⟨writeEntry key value modifiers.entries,
    ascending_writeEntry modifiers.ascending⟩

/-- Write pairs from left to right. -/
def insertAll
    (modifiers : Modifiers)
    (pairs : List (String × Value)) :
    Modifiers :=
  pairs.foldl (fun built pair => built.insert pair.1 pair.2) modifiers

/-- Write all entries of other modifiers. -/
def merge (modifiers later : Modifiers) : Modifiers :=
  modifiers.insertAll later.entries

/-- The modifiers that pairs make when written from left to right. -/
def ofList (pairs : List (String × Value)) : Modifiers :=
  empty.insertAll pairs

/-- The value of a key. -/
def get?
    (modifiers : Modifiers)
    (key : String) :
    Option Value :=
  modifiers.entries.lookup key

/-- The number of keys. -/
def size (modifiers : Modifiers) : Nat :=
  modifiers.entries.length

/-- There is no key. -/
def isEmpty (modifiers : Modifiers) : Bool :=
  modifiers.entries.isEmpty

/-- A key with its value; a text stands in double quotes, without escaping. -/
def renderEntry (entry : String × Value) : String :=
  match entry.2 with
  | .text text => entry.1 ++ "=\"" ++ text ++ "\""
  | value => entry.1 ++ "=" ++ value.render

/-- The modifiers as one block, the keys in ascending order. -/
def render (modifiers : Modifiers) : String :=
  "::mod(" ++
    String.intercalate ", " (modifiers.entries.map renderEntry) ++ ")"

/-- The same keys with values that agree. -/
def agrees (left right : Modifiers) : Bool :=
  left.entries.length = right.entries.length &&
    (left.entries.zip right.entries).all fun entries =>
      entries.1.1 = entries.2.1 && entries.1.2.agrees entries.2.2

end Modifiers

end AnchorScript
