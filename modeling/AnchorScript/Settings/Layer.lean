import AnchorScript.Json.Basic
import AnchorScript.Settings.Path

namespace AnchorScript

/-!
# Layers of settings

Settings are laid over each other, key by key, and a key of a layer is a path.
Setting a value along a path makes a record of whatever stands before a name,
and a list of whatever stands before a position; other fields and items stay as
they are. A record laid over a record leaves the other fields of it alone too.
-/

/-- The keys that a layer sets and their values, in the order of setting. -/
abbrev Layer := List (String × Json)

namespace Layer

/-- The fields of a record; anything else has none. -/
def fieldsOf : Json → List (String × Json)
  | .record fields => fields
  | _ => []

/-- The items of a list; anything else has none. -/
def itemsOf : Json → List Json
  | .list items => items
  | _ => []

/-- A field in place of the one with its key. -/
def withField
    (key : String)
    (value : Json)
    (fields : List (String × Json)) :
    List (String × Json) :=
  (key, value) :: fields.filter fun field => field.1 ≠ key

/-- What stands at a key, or null. -/
def fieldOrNull
    (key : String)
    (fields : List (String × Json)) :
    Json :=
  (Json.field? fields key).getD .null

mutual

/-- Lay a value over what stands in its place. -/
def laidOver (below : Json) : Json → Json
  | .record fields => .record (fieldsLaidOver (fieldsOf below) fields)
  | value => value

/-- Lay fields over the fields of a record. -/
def fieldsLaidOver
    (below : List (String × Json)) :
    List (String × Json) → List (String × Json)
  | [] => below
  | (key, value) :: rest =>
      fieldsLaidOver (withField key (laidOver (fieldOrNull key below) value) below) rest

end

/--
Items with room at a position, and the place of that position among them. Nulls
fill the room behind the last item, and before the first one if the position
counts from the end beyond it.
-/
def withRoom (position : Int) (items : List Json) : List Json × Nat :=
  let fromFront := if position < 0 then items.length + position else position
  if fromFront < 0 then
    (List.replicate (-fromFront).toNat .null ++ items, 0)
  else
    let place := fromFront.toNat
    (items ++ List.replicate (place + 1 - items.length) .null, place)

/-- Lay a value over what stands at the end of a path. -/
def assign
    (value : Json) :
    List PathStep → Json → Json
  | [], below => laidOver below value
  | .field name :: rest, below =>
      let fields := fieldsOf below
      .record
        (withField name (assign value rest (fieldOrNull name fields)) fields)
  | .item position :: rest, below =>
      let (items, place) := withRoom position (itemsOf below)
      .list (items.set place (assign value rest (items[place]?.getD .null)))

/-- Lay a whole layer over a value. -/
def apply (layer : Layer) (below : Json) : Json :=
  layer.foldl (fun found entry => assign entry.2 (PathStep.ofKey entry.1) found) below

end Layer

end AnchorScript
