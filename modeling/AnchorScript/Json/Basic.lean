import AnchorScript.Number.Binary64

namespace AnchorScript

/-!
# JSON values

Documents and page records are served as JSON, and settings are read from it.
Integers and other numbers are kept apart, because settings show the
difference. A record keeps its fields in the order in which they were written.
-/

/-- A JSON value. -/
inductive Json where
  | null
  | flag (truth : Bool)
  | integer (whole : Int)
  | number (binary : Binary64)
  | text (characters : String)
  | list (items : List Json)
  | record (fields : List (String × Json))
deriving Repr, Inhabited

namespace Json

/-- JSON has no infinities and nothing that is not a number; they become null. -/
def ofNumber (binary : Binary64) : Json :=
  if binary.isFinite then .number binary else .null

/-- A field that is left out when there is nothing to write. -/
def optionalField
    (key : String)
    (content : Option String) :
    List (String × Json) :=
  match content with
  | some written => [(key, .text written)]
  | none => []

/-- The field of a record, the last one if it is written twice. -/
def field?
    (fields : List (String × Json))
    (key : String) :
    Option Json :=
  (fields.reverse.find? fun field => field.1 = key).map Prod.snd

end Json

end AnchorScript
