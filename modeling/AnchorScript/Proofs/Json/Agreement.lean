import AnchorScript.Json.Document
import AnchorScript.Proofs.Json.Fields
import AnchorScript.Proofs.Modifiers.Agreement

namespace AnchorScript

/-!
# JSON values that agree

JSON values are compared as what they stand for: the fields of a record by their
keys, in whatever order they were written, and numbers numerically. A value or
modifiers are written as JSON values that agree just when they agree themselves,
as long as their numbers are finite; for others there is no JSON.
-/

/-- The same JSON value, apart from the order of fields and the sign of zeros. -/
inductive Json.Agrees : Json → Json → Prop where
  | null : Agrees .null .null
  | flag (truth : Bool) : Agrees (.flag truth) (.flag truth)
  | integer (whole : Int) : Agrees (.integer whole) (.integer whole)
  | number
      {left right : Binary64}
      (same : left.agrees right = true) :
      Agrees (.number left) (.number right)
  | text (characters : String) : Agrees (.text characters) (.text characters)
  | list
      {items others : List Json}
      (same : List.Forall₂ Agrees items others) :
      Agrees (.list items) (.list others)
  | record
      {fields others : List (String × Json)}
      (same :
        ∀ key,
          Option.Rel Agrees
            (Json.field? fields key) (Json.field? others key)) :
      Agrees (.record fields) (.record others)

namespace Json

/-- Records agree just when their answers to every key do. -/
theorem agrees_record_iff
    {fields others : List (String × Json)} :
    Agrees (.record fields) (.record others) ↔
      ∀ key, Option.Rel Agrees (field? fields key) (field? others key) := by
  constructor
  · intro same
    cases same with
    | record same => exact same
  · exact Agrees.record

/-- Lists agree just when their items do, one by one. -/
theorem agrees_list_iff
    {items others : List Json} :
    Agrees (.list items) (.list others) ↔
      List.Forall₂ Agrees items others := by
  constructor
  · intro same
    cases same with
    | list same => exact same
  · exact Agrees.list

theorem agrees_text_iff
    {characters others : String} :
    Agrees (.text characters) (.text others) ↔ characters = others := by
  constructor
  · intro same
    cases same
    rfl
  · rintro rfl
    exact Agrees.text characters

end Json

namespace Value

/-- A number is finite. -/
def isFinite : Value → Bool
  | .number binary => binary.isFinite
  | _ => true

/-- Values that agree are written as JSON values that agree. -/
theorem agrees_toJson
    {left right : Value}
    (same : left.agrees right = true) :
    Json.Agrees left.toJson right.toJson := by
  cases left with
  | flag truth =>
      cases right with
      | flag other =>
          rw [show truth = other from of_decide_eq_true same]
          exact Json.Agrees.flag other
      | number _ => cases same
      | text _ => cases same
  | number binary =>
      cases right with
      | flag _ => cases same
      | number other =>
          simp only [toJson, Json.ofNumber, Binary64.isFinite_of_agrees same]
          split
          · exact Json.Agrees.number same
          · exact Json.Agrees.null
      | text _ => cases same
  | text written =>
      cases right with
      | flag _ => cases same
      | number _ => cases same
      | text other =>
          rw [show written = other from of_decide_eq_true same]
          exact Json.Agrees.text other

/-- The value that a JSON value was written for. -/
def ofJson? : Json → Option Value
  | .flag truth => some (.flag truth)
  | .number binary => some (.number binary)
  | .text characters => some (.text characters)
  | _ => none

/-- The kinds of JSON values keep apart the kinds of values with finite numbers. -/
theorem ofJson?_toJson
    {value : Value}
    (finite : value.isFinite = true) :
    ofJson? value.toJson = some value := by
  cases value with
  | flag truth => rfl
  | number binary =>
      have written : toJson (.number binary) = .number binary := if_pos finite
      rw [written]
      rfl
  | text characters => rfl

/-- JSON values that agree were written for values that agree. -/
theorem agrees_of_toJson
    {left right : Value}
    (leftFinite : left.isFinite = true)
    (rightFinite : right.isFinite = true)
    (same : Json.Agrees left.toJson right.toJson) :
    left.agrees right = true := by
  have leftRead := ofJson?_toJson leftFinite
  have rightRead := ofJson?_toJson rightFinite
  generalize left.toJson = leftWritten at same leftRead
  generalize right.toJson = rightWritten at same rightRead
  cases same with
  | null => cases leftRead
  | flag truth =>
      cases leftRead
      cases rightRead
      exact decide_eq_true rfl
  | integer whole => cases leftRead
  | number same =>
      cases leftRead
      cases rightRead
      exact same
  | text characters =>
      cases leftRead
      cases rightRead
      exact decide_eq_true rfl
  | list same => cases leftRead
  | record same => cases leftRead

end Value

namespace Modifiers

/-- The field of a key is what the value of the key is written as. -/
theorem field?_toJson
    (modifiers : Modifiers)
    (key : String) :
    Json.field?
        (modifiers.entries.map fun entry => (entry.1, entry.2.toJson)) key =
      (modifiers.get? key).map Value.toJson := by
  rw [Json.field?_map, lastValue?_entries]

/-- Modifiers that agree are written as JSON values that agree. -/
theorem agrees_toJson
    {left right : Modifiers}
    (same : left.agrees right = true) :
    Json.Agrees left.toJson right.toJson := by
  refine Json.agrees_record_iff.mpr fun key => ?_
  rw [field?_toJson, field?_toJson]
  have answers := agrees_iff_get?.mp same key
  generalize left.get? key = value at answers ⊢
  generalize right.get? key = other at answers ⊢
  cases answers with
  | some same => exact Option.Rel.some (Value.agrees_toJson same)
  | none => exact Option.Rel.none

end Modifiers

end AnchorScript
