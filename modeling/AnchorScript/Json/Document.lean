import AnchorScript.Document
import AnchorScript.Json.Basic

namespace AnchorScript

/-!
# Documents as JSON

A value is written without its kind, since the kinds of JSON tell flags,
numbers and texts apart. An anchor without a scope leaves the field out, so that
it differs from one with an empty scope. The field names are part of the format.
-/

/-- The value as JSON. -/
def Value.toJson : Value → Json
  | .flag truth => .flag truth
  | .number binary => Json.ofNumber binary
  | .text characters => .text characters

/-- The anchor as a record of its name, scope and text. -/
def Anchor.toJson (anchor : Anchor) : Json :=
  .record
    ([("name", .text anchor.name)] ++
      Json.optionalField "namespace" anchor.scope ++
      [("raw", .text anchor.raw)])

/-- The modifiers as a record with the keys in ascending order. -/
def Modifiers.toJson (modifiers : Modifiers) : Json :=
  .record (modifiers.entries.map fun entry => (entry.1, entry.2.toJson))

/-- The statement as a record of its parts. -/
def Statement.toJson (statement : Statement) : Json :=
  .record
    [("source", statement.source.toJson),
      ("target", statement.target.toJson),
      ("modifiers", statement.modifiers.toJson)]

/-- The document as a record of its statements and comments. -/
def Document.toJson (document : Document) : Json :=
  .record
    [("statements", .list (document.statements.map Statement.toJson)),
      ("comments", .list (document.comments.map Json.text))]

end AnchorScript
