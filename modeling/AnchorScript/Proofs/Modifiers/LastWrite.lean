import AnchorScript.Modifiers
import Mathlib.Data.List.Forall2

namespace AnchorScript

/-!
# The last write of a key

Modifiers answer a lookup with the last value that was written for the key. As
the entries are ascending, the answers determine the modifiers, so that writing
the entries of modifiers anew gives the same modifiers.
-/

/-- The value of the last pair with a key. -/
def lastValue?
    (key : String)
    (pairs : List (String × Value)) :
    Option Value :=
  (pairs.filter fun pair => pair.1 = key).getLast?.map Prod.snd

@[simp] theorem lastValue?_nil (key : String) :
    lastValue? key [] = none :=
  rfl

/-- Later pairs count before earlier ones. -/
theorem lastValue?_append
    (key : String)
    (earlier later : List (String × Value)) :
    lastValue? key (earlier ++ later) =
      (lastValue? key later).or (lastValue? key earlier) := by
  simp only [lastValue?, List.filter_append, List.getLast?_append,
    Option.map_or]

theorem lastValue?_cons
    (key : String)
    (pair : String × Value)
    (rest : List (String × Value)) :
    lastValue? key (pair :: rest) =
      (lastValue? key rest).or
        (if pair.1 = key then some pair.2 else none) := by
  rw [← List.singleton_append, lastValue?_append]
  by_cases sameKey : pair.1 = key <;> simp [lastValue?, sameKey]

/-- A key has no last value just when it was never written. -/
theorem lastValue?_eq_none_iff
    {key : String}
    {pairs : List (String × Value)} :
    lastValue? key pairs = none ↔ ∀ pair ∈ pairs, pair.1 ≠ key := by
  simp [lastValue?]

/-- The first entry is found under its key, and the others under other keys. -/
theorem lookup_cons_eq_ite
    (key : String)
    (entry : String × Value)
    (rest : List (String × Value)) :
    (entry :: rest).lookup key =
      if key = entry.1 then some entry.2 else rest.lookup key := by
  rw [List.lookup_cons]
  by_cases isFirst : key = entry.1
  · simp [isFirst]
  · have different : (key == entry.1) = false := by
      simpa using isFirst
    simp [isFirst, different]

/-- A written entry is found, and the others are found as before. -/
theorem lookup_writeEntry
    (key other : String)
    (value : Value)
    (entries : List (String × Value)) :
    (writeEntry key value entries).lookup other =
      if other = key then some value else entries.lookup other := by
  induction entries with
  | nil =>
      exact lookup_cons_eq_ite other (key, value) []
  | cons first rest inductionHypothesis =>
      simp only [writeEntry]
      split
      · exact lookup_cons_eq_ite other (key, value) (first :: rest)
      · split
        · rename_i firstKey
          rw [lookup_cons_eq_ite, lookup_cons_eq_ite, ← firstKey]
          by_cases sameKey : other = key <;> simp [sameKey]
        · rename_i otherKey
          rw [lookup_cons_eq_ite, lookup_cons_eq_ite, inductionHypothesis]
          by_cases isFirst : other = first.1
          · have different : first.1 ≠ key := Ne.symm otherKey
            simp [isFirst, different]
          · simp [isFirst]

namespace Modifiers

@[simp] theorem get?_empty (key : String) :
    empty.get? key = none :=
  rfl

/-- A written key has the new value, and the others keep theirs. -/
theorem get?_insert
    (modifiers : Modifiers)
    (key other : String)
    (value : Value) :
    (modifiers.insert key value).get? other =
      if other = key then some value else modifiers.get? other :=
  lookup_writeEntry key other value modifiers.entries

/-- After some writes a key has the last value written, or else its former one. -/
theorem get?_insertAll
    (modifiers : Modifiers)
    (pairs : List (String × Value))
    (key : String) :
    (modifiers.insertAll pairs).get? key =
      (lastValue? key pairs).or (modifiers.get? key) := by
  induction pairs generalizing modifiers with
  | nil =>
      rfl
  | cons pair rest inductionHypothesis =>
      have written :
          modifiers.insertAll (pair :: rest) =
            (modifiers.insert pair.1 pair.2).insertAll rest :=
        rfl
      rw [written, inductionHypothesis, get?_insert, lastValue?_cons,
        Option.or_assoc]
      congr 1
      by_cases sameKey : pair.1 = key
      · simp [sameKey]
      · simp [sameKey, Ne.symm sameKey]

/-- Pairs make modifiers in which every key has its last value. -/
theorem get?_ofList
    (pairs : List (String × Value))
    (key : String) :
    (ofList pairs).get? key = lastValue? key pairs := by
  rw [ofList, get?_insertAll, get?_empty, Option.or_none]

/--
Entries with ascending keys have a key at most once, so the first and the last
agree.
-/
private theorem lastValue?_of_ascending
    {entries : List (String × Value)}
    (ascending : entries.Pairwise fun left right => left.1 < right.1)
    (key : String) :
    lastValue? key entries = entries.lookup key := by
  induction entries with
  | nil =>
      rfl
  | cons first rest inductionHypothesis =>
      obtain ⟨firstLeast, restAscending⟩ := List.pairwise_cons.mp ascending
      rw [lastValue?_cons, inductionHypothesis restAscending,
        lookup_cons_eq_ite]
      by_cases isFirst : first.1 = key
      · have notLater : rest.lookup key = none := by
          refine List.lookup_eq_none_iff.mpr ?_
          intro entry member
          have less := firstLeast entry member
          rw [isFirst] at less
          simpa using String.ne_of_lt less
        simp [isFirst, notLater]
      · simp [isFirst, Ne.symm isFirst]

/-- The value of a key is that of its last entry. -/
theorem lastValue?_entries
    (modifiers : Modifiers)
    (key : String) :
    lastValue? key modifiers.entries = modifiers.get? key :=
  lastValue?_of_ascending modifiers.ascending key

/-- The entries are the keys with the values that they are found with. -/
theorem mem_entries_iff
    {modifiers : Modifiers}
    {key : String}
    {value : Value} :
    (key, value) ∈ modifiers.entries ↔ modifiers.get? key = some value := by
  rw [get?, List.lookup_eq_some_iff]
  constructor
  · intro member
    obtain ⟨before, after, split⟩ := List.append_of_mem member
    refine ⟨before, after, split, fun entry inBefore => ?_⟩
    have ascending := modifiers.ascending
    rw [split, List.pairwise_append] at ascending
    have less := ascending.2.2 entry inBefore _ List.mem_cons_self
    simpa using (String.ne_of_lt less).symm
  · rintro ⟨before, after, split, _⟩
    rw [split]
    exact List.mem_append_right _ List.mem_cons_self

/-- Merging takes the later value of a key, or else the earlier one. -/
theorem get?_merge
    (earlier later : Modifiers)
    (key : String) :
    (earlier.merge later).get? key =
      (later.get? key).or (earlier.get? key) := by
  rw [merge, get?_insertAll, lastValue?_entries]

private theorem lookup_eq_none_of_lt
    {key : String}
    {entries : List (String × Value)}
    (below : ∀ entry ∈ entries, key < entry.1) :
    entries.lookup key = none := by
  refine List.lookup_eq_none_iff.mpr ?_
  intro entry member
  simpa using String.ne_of_lt (below entry member)

/--
Entries with ascending keys whose answers to every lookup are related stand in
pairs, with the same keys and related values.
-/
private theorem forall₂_of_lookup
    {related : Value → Value → Prop}
    {left right : List (String × Value)}
    (leftAscending : left.Pairwise fun entry later => entry.1 < later.1)
    (rightAscending : right.Pairwise fun entry later => entry.1 < later.1)
    (answers :
      ∀ key, Option.Rel related (left.lookup key) (right.lookup key)) :
    List.Forall₂ (fun entry other => entry.1 = other.1 ∧ related entry.2 other.2)
      left right := by
  induction left generalizing right with
  | nil =>
      cases right with
      | nil =>
          exact List.Forall₂.nil
      | cons first rest =>
          have answer := answers first.1
          rw [lookup_cons_eq_ite, if_pos rfl] at answer
          cases answer
  | cons first rest inductionHypothesis =>
      cases right with
      | nil =>
          have answer := answers first.1
          rw [lookup_cons_eq_ite, if_pos rfl] at answer
          cases answer
      | cons head tail =>
          obtain ⟨firstLeast, restAscending⟩ :=
            List.pairwise_cons.mp leftAscending
          obtain ⟨headLeast, tailAscending⟩ :=
            List.pairwise_cons.mp rightAscending
          -- The lesser of two different first keys is missing on the other side.
          have firstNotLess : ¬first.1 < head.1 := by
            intro less
            have missing : (head :: tail).lookup first.1 = none := by
              refine lookup_eq_none_of_lt ?_
              intro entry member
              rcases List.mem_cons.mp member with isHead | inTail
              · exact isHead ▸ less
              · exact String.lt_trans less (headLeast entry inTail)
            have answer := answers first.1
            rw [missing, lookup_cons_eq_ite, if_pos rfl] at answer
            cases answer
          have headNotLess : ¬head.1 < first.1 := by
            intro less
            have missing : (first :: rest).lookup head.1 = none := by
              refine lookup_eq_none_of_lt ?_
              intro entry member
              rcases List.mem_cons.mp member with isFirst | inRest
              · exact isFirst ▸ less
              · exact String.lt_trans less (firstLeast entry inRest)
            have answer := answers head.1
            rw [missing, lookup_cons_eq_ite, if_pos rfl] at answer
            cases answer
          have sameKey : first.1 = head.1 :=
            String.le_antisymm
              (String.not_lt.mp headNotLess) (String.not_lt.mp firstNotLess)
          have firstRelated : related first.2 head.2 := by
            have answer := answers first.1
            rw [lookup_cons_eq_ite, if_pos rfl, lookup_cons_eq_ite,
              if_pos sameKey] at answer
            cases answer with
            | some isRelated => exact isRelated
          refine
            List.Forall₂.cons ⟨sameKey, firstRelated⟩
              (inductionHypothesis restAscending tailAscending ?_)
          intro key
          by_cases isFirst : key = first.1
          · rw [isFirst, lookup_eq_none_of_lt firstLeast, sameKey,
              lookup_eq_none_of_lt headLeast]
            exact Option.Rel.none
          · have answer := answers key
            rwa [lookup_cons_eq_ite, lookup_cons_eq_ite, ← sameKey,
              if_neg isFirst, if_neg isFirst] at answer

/-- Entries that stand in pairs with the same keys answer every lookup alike. -/
private theorem lookup_of_forall₂
    {related : Value → Value → Prop}
    {left right : List (String × Value)}
    (pairs :
      List.Forall₂
        (fun entry other => entry.1 = other.1 ∧ related entry.2 other.2)
        left right)
    (key : String) :
    Option.Rel related (left.lookup key) (right.lookup key) := by
  induction pairs with
  | nil =>
      exact Option.Rel.none
  | cons first _ inductionHypothesis =>
      obtain ⟨sameKey, firstRelated⟩ := first
      rw [lookup_cons_eq_ite, lookup_cons_eq_ite, ← sameKey]
      split
      · exact Option.Rel.some firstRelated
      · exact inductionHypothesis

/--
Modifiers answer every lookup in a related way just when their entries stand in
pairs with the same keys and related values.
-/
theorem forall₂_entries_iff
    (related : Value → Value → Prop)
    {left right : Modifiers} :
    List.Forall₂ (fun entry other => entry.1 = other.1 ∧ related entry.2 other.2)
        left.entries right.entries ↔
      ∀ key, Option.Rel related (left.get? key) (right.get? key) :=
  ⟨lookup_of_forall₂,
    forall₂_of_lookup left.ascending right.ascending⟩

/-- Modifiers that answer every lookup alike are the same. -/
theorem ext_get?
    {left right : Modifiers}
    (same : ∀ key, left.get? key = right.get? key) :
    left = right := by
  have answers :
      ∀ key, Option.Rel (· = ·) (left.get? key) (right.get? key) := by
    intro key
    rw [same key]
    cases right.get? key with
    | none => exact Option.Rel.none
    | some value => exact Option.Rel.some rfl
  have entries : left.entries = right.entries := by
    rw [← List.forall₂_eq_eq_eq]
    exact ((forall₂_entries_iff (· = ·)).mpr answers).imp
      fun _ _ pair => Prod.ext pair.1 pair.2
  cases left
  cases right
  simpa only [mk.injEq] using entries

end Modifiers

end AnchorScript
