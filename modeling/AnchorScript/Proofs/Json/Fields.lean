import AnchorScript.Json.Basic
import AnchorScript.Proofs.Modifiers.LastWrite

namespace AnchorScript.Json

/-!
# Fields of a record

A record may be written with a key more than once, and then the last field with
the key counts. So fields that are written from entries say what the entries say
when they are looked up from the end.
-/

@[simp] theorem field?_nil (key : String) :
    field? [] key = none :=
  rfl

/-- Later fields count before the first one. -/
theorem field?_cons
    (field : String × Json)
    (rest : List (String × Json))
    (key : String) :
    field? (field :: rest) key =
      (field? rest key).or (if field.1 = key then some field.2 else none) := by
  simp only [field?, List.reverse_cons, List.find?_append]
  cases rest.reverse.find? fun other => other.1 = key with
  | some found =>
      rfl
  | none =>
      by_cases isFirst : field.1 = key <;> simp [isFirst]

/-- A key has no field just when none is written with it. -/
theorem field?_eq_none_iff
    {fields : List (String × Json)}
    {key : String} :
    field? fields key = none ↔ ∀ field ∈ fields, field.1 ≠ key := by
  simp [field?]

/-- Fields written from entries are found where the last of the entries are. -/
theorem field?_map
    (write : Value → Json)
    (entries : List (String × Value))
    (key : String) :
    field? (entries.map fun entry => (entry.1, write entry.2)) key =
      (lastValue? key entries).map write := by
  induction entries with
  | nil =>
      rfl
  | cons entry rest inductionHypothesis =>
      rw [List.map_cons, field?_cons, inductionHypothesis, lastValue?_cons,
        Option.map_or]
      congr 1
      split <;> rfl

end AnchorScript.Json
