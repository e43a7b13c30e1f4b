import AnchorScript.Json.Basic

namespace AnchorScript.Json

/-!
# Equality of JSON values

Equality of values is decided by going through both at once, item by item and
field by field. So what a text is read as can be checked by evaluation.
-/

mutual

/-- Whether two values are the same. -/
def isSame : Json → Json → Bool
  | .null, .null => true
  | .flag truth, .flag other => truth = other
  | .integer whole, .integer other => whole = other
  | .number binary, .number other => binary = other
  | .text characters, .text other => characters = other
  | .list items, .list others => areSame items others
  | .record fields, .record others => haveSame fields others
  | _, _ => false

/-- Whether two lists have the same values. -/
def areSame : List Json → List Json → Bool
  | [], [] => true
  | first :: rest, other :: others => isSame first other && areSame rest others
  | _, _ => false

/-- Whether two records have the same fields in the same order. -/
def haveSame : List (String × Json) → List (String × Json) → Bool
  | [], [] => true
  | (key, value) :: rest, (otherKey, other) :: others =>
      key = otherKey && isSame value other && haveSame rest others
  | _, _ => false

end

mutual

/-- The check for values finds out whether they are equal. -/
theorem isSame_iff :
    ∀ left right : Json, isSame left right = true ↔ left = right
  | .null, right => by
      cases right <;> simp [isSame]
  | .flag truth, right => by
      cases right <;> simp [isSame]
  | .integer whole, right => by
      cases right <;> simp [isSame]
  | .number binary, right => by
      cases right <;> simp [isSame]
  | .text characters, right => by
      cases right <;> simp [isSame]
  | .list items, right => by
      cases right <;> simp [isSame, areSame_iff items]
  | .record fields, right => by
      cases right <;> simp [isSame, haveSame_iff fields]

/-- The check for lists finds out whether they are equal. -/
theorem areSame_iff :
    ∀ left right : List Json, areSame left right = true ↔ left = right
  | [], right => by
      cases right <;> simp [areSame]
  | first :: rest, right => by
      cases right <;> simp [areSame, isSame_iff first, areSame_iff rest]

/-- The check for records finds out whether they are equal. -/
theorem haveSame_iff :
    ∀ left right : List (String × Json), haveSame left right = true ↔ left = right
  | [], right => by
      cases right <;> simp [haveSame]
  | (key, value) :: rest, right => by
      rcases right with _ | ⟨⟨otherKey, other⟩, others⟩ <;>
        simp [haveSame, isSame_iff value, haveSame_iff rest]

end

instance : DecidableEq Json := fun left right =>
  decidable_of_iff _ (isSame_iff left right)

end AnchorScript.Json
