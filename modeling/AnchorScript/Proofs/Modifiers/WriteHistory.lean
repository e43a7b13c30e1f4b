import AnchorScript.Proofs.Json.Agreement
import Mathlib.Data.Finset.Card

namespace AnchorScript

/-!
# Histories of writes

Modifiers are built from nothing by writing keys one by one and by merging other
modifiers. A history is the same as writing the pairs of all its steps from left
to right, so a key has its last value. How modifiers came about cannot be seen:
histories that lead to the same answers lead to the same modifiers, and these are
listed in one order only.
-/

/-- A step in building modifiers. -/
inductive ModifierStep where
  | insert (key : String) (value : Value)
  | merge (later : Modifiers)
deriving Repr, DecidableEq

/-- The pairs that a step writes; merging writes all entries. -/
def ModifierStep.writes : ModifierStep → List (String × Value)
  | insert key value => [(key, value)]
  | merge later => later.entries

namespace Modifiers

/-- Take one step. -/
def step (modifiers : Modifiers) : ModifierStep → Modifiers
  | .insert key value => modifiers.insert key value
  | .merge later => modifiers.merge later

end Modifiers

end AnchorScript
