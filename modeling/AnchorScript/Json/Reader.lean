import AnchorScript.Json.Token

namespace AnchorScript

/-!
# Reading JSON

Tokens are put together one after the other. What is still open stands on a
stack, innermost first, and the stage says which tokens can come next. Of
fields with the same key the last one stays. Values may be nested only so deep.
-/

/-- A list or a record around the value that is being read. -/
inductive JsonEnclosure where
  | list (items : List Json)
  | record (fields : List (String × Json)) (key : String)
deriving Repr

/-- What can come next. -/
inductive JsonStage where
  /-- A value. -/
  | value
  /-- The first item of a list, or its end. -/
  | firstItem
  /-- A comma before another item, or the end of the list. -/
  | afterItem (items : List Json)
  /-- The first key of a record, or its end. -/
  | firstKey
  /-- A key of a record that has fields already. -/
  | key (fields : List (String × Json))
  /-- The colon after a key. -/
  | afterKey (fields : List (String × Json)) (key : String)
  /-- A comma before another field, or the end of the record. -/
  | afterField (fields : List (String × Json))
  /-- Nothing more. -/
  | complete (value : Json)
deriving Repr

/-- A value that is being put together. -/
structure JsonAssembly where
  enclosures : List JsonEnclosure
  stage : JsonStage
deriving Repr

namespace JsonAssembly

/-- A field at the end of a record, in place of an earlier one with its key. -/
def withField
    (fields : List (String × Json))
    (key : String)
    (value : Json) :
    List (String × Json) :=
  (fields.filter fun field => field.1 ≠ key) ++ [(key, value)]

/-- A value is complete; it belongs to what encloses it. -/
def complete
    (enclosures : List JsonEnclosure)
    (value : Json) :
    JsonAssembly :=
  match enclosures with
  | [] => ⟨[], .complete value⟩
  | .list items :: outer => ⟨outer, .afterItem (items ++ [value])⟩
  | .record fields key :: outer =>
      ⟨outer, .afterField (withField fields key value)⟩

/-- The first token of a value. -/
def start?
    (enclosures : List JsonEnclosure) :
    JsonToken → Option JsonAssembly
  | .scalar value => some (complete enclosures value)
  | .openList => some ⟨enclosures, .firstItem⟩
  | .openRecord => some ⟨enclosures, .firstKey⟩
  | _ => none

/-- Take the next token, if it can come next. -/
def step?
    (assembly : JsonAssembly)
    (token : JsonToken) :
    Option JsonAssembly :=
  let outer := assembly.enclosures
  match assembly.stage, token with
  | .value, first => start? outer first
  | .firstItem, .closeList => some (complete outer (.list []))
  | .firstItem, first => start? (.list [] :: outer) first
  | .afterItem items, .comma => some ⟨.list items :: outer, .value⟩
  | .afterItem items, .closeList => some (complete outer (.list items))
  | .firstKey, .closeRecord => some (complete outer (.record []))
  | .firstKey, .scalar (.text key) => some ⟨outer, .afterKey [] key⟩
  | .key fields, .scalar (.text key) => some ⟨outer, .afterKey fields key⟩
  | .afterKey fields key, .colon => some ⟨.record fields key :: outer, .value⟩
  | .afterField fields, .comma => some ⟨outer, .key fields⟩
  | .afterField fields, .closeRecord => some (complete outer (.record fields))
  | _, _ => none

end JsonAssembly

namespace Json

/-- How deep lists and records may stand in each other. -/
def greatestDepth : Nat := 127

/-- The depth after a token, and the greatest depth up to it. -/
def deepen (depths : Nat × Nat) : JsonToken → Nat × Nat
  | .openList | .openRecord =>
      (depths.1 + 1, max depths.2 (depths.1 + 1))
  | .closeList | .closeRecord => (depths.1 - 1, depths.2)
  | _ => depths

/-- The value that tokens make up. -/
def ofTokens? (tokens : List JsonToken) : Option Json :=
  if greatestDepth < (tokens.foldl deepen (0, 0)).2 then none
  else
    match tokens.foldlM JsonAssembly.step? ⟨[], .value⟩ with
    | some ⟨_, .complete value⟩ => some value
    | _ => none

/-- The value that a JSON text writes. -/
def ofText? (text : List Char) : Option Json :=
  (JsonToken.ofText? text).bind ofTokens?

end Json

end AnchorScript
