import AnchorScript.Settings.Layer
import AnchorScript.Settings.TableToken
import AnchorScript.Text.Utf8

namespace AnchorScript

/-!
# Settings tables

Reading a table takes its tokens one after the other. A line is empty, names
the table that the following keys belong to, or gives a key its value. Values
are texts, flags, whole numbers, and lists, which may go on over several lines.
Nothing may be given twice.
-/

/-- What can come next in a table. -/
inductive TableStage where
  /-- A new line. -/
  | lineStart
  /-- A name in the heading of a table, after the names before it. -/
  | headingName (path : List String)
  /-- A dot, or the end of the heading. -/
  | afterHeadingName (path : List String)
  /-- A name in a key, after the names before it. -/
  | keyName (path : List String)
  /-- A dot, or the equals sign. -/
  | afterKeyName (path : List String)
  /-- The value of a key. -/
  | value (path : List String)
  /-- An item of a list, or its end; `around` holds the lists that it stands in. -/
  | item (path : List String) (around : List (List Json)) (items : List Json)
  /-- A comma, or the end of a list. -/
  | afterItem (path : List String) (around : List (List Json)) (items : List Json)
  /-- Nothing more in this line. -/
  | lineEnd
deriving Repr

/-- A table that is being read: the heading that counts, and what was given so far. -/
structure TableReading where
  heading : List String
  headings : List (List String)
  entries : List (List String × Json)
  stage : TableStage
deriving Repr

namespace TableReading

/-- Nothing was read yet. -/
def start : TableReading :=
  ⟨[], [], [], .lineStart⟩

/-- Go on to another stage. -/
def next (reading : TableReading) (stage : TableStage) : TableReading :=
  { reading with stage }

/-- The name that a token writes in a key or a heading. -/
def name? : TableToken → Option String
  | .word characters => some (String.ofList characters)
  | .text characters => some (String.ofList characters)
  | _ => none

/-- The whole number of 64 signed bits that a word writes, without needless zeros. -/
def whole? (word : List Char) : Option Int :=
  let unsigned? (digits : List Char) : Option Nat :=
    if digits = [] ∨ digits.all Char.isDigit = false ∨
        (digits.head? = some '0' ∧ digits ≠ ['0']) then none
    else some (Nat.ofDigitChars 10 digits 0)
  let value? : Option Int :=
    match word with
    | '-' :: digits => (unsigned? digits).map fun found => -(found : Int)
    | digits => (unsigned? digits).map Int.ofNat
  value?.filter fun value => (Int64.ofInt value).toInt = value

/-- The value that one token writes. -/
def scalar? : TableToken → Option Json
  | .text characters => some (.text (String.ofList characters))
  | .word characters =>
      if characters = "true".toList then some (.flag true)
      else if characters = "false".toList then some (.flag false)
      else (whole? characters).map Json.integer
  | _ => none

/-- Whether two paths cannot both have a value. -/
def clash (left right : List String) : Bool :=
  left.isPrefixOf right || right.isPrefixOf left

/-- Give a value to a key under the current heading, unless it clashes. -/
def give?
    (path : List String)
    (value : Json)
    (reading : TableReading) :
    Option TableReading :=
  let full := reading.heading ++ path
  if reading.entries.any (fun entry => clash entry.1 full) ||
      reading.headings.any (fun other => full.isPrefixOf other) then
    none
  else
    some
      { reading with
        entries := reading.entries ++ [(full, value)]
        stage := .lineEnd }

/-- End a list: it is an item of the list around it, or the value of a key. -/
def endList?
    (path : List String)
    (around : List (List Json))
    (items : List Json)
    (reading : TableReading) :
    Option TableReading :=
  match around with
  | [] => reading.give? path (.list items)
  | outer :: others =>
      some (reading.next (.afterItem path others (outer ++ [.list items])))

/-- Start the table of a heading, unless it was started or given before. -/
def head?
    (path : List String)
    (reading : TableReading) :
    Option TableReading :=
  if reading.headings.contains path ||
      reading.entries.any (fun entry => clash entry.1 path) then
    none
  else
    some
      { reading with
        heading := path
        headings := reading.headings ++ [path]
        stage := .lineEnd }

/-- Take the next token, if it can come next. -/
def step?
    (reading : TableReading)
    (token : TableToken) :
    Option TableReading :=
  match reading.stage, token with
  | .lineStart, .lineEnd => some reading
  | .lineStart, .opening => some (reading.next (.headingName []))
  | .lineStart, first =>
      (name? first).map fun name => reading.next (.afterKeyName [name])
  | .headingName path, part =>
      (name? part).map fun name =>
        reading.next (.afterHeadingName (path ++ [name]))
  | .afterHeadingName path, .dot => some (reading.next (.headingName path))
  | .afterHeadingName path, .closing => reading.head? path
  | .keyName path, part =>
      (name? part).map fun name =>
        reading.next (.afterKeyName (path ++ [name]))
  | .afterKeyName path, .dot => some (reading.next (.keyName path))
  | .afterKeyName path, .equals => some (reading.next (.value path))
  | .value path, .opening => some (reading.next (.item path [] []))
  | .value path, part => (scalar? part).bind fun value => reading.give? path value
  | .item _ _ _, .lineEnd => some reading
  | .item path around items, .opening =>
      some (reading.next (.item path (items :: around) []))
  | .item path around items, .closing => reading.endList? path around items
  | .item path around items, part =>
      (scalar? part).map fun value =>
        reading.next (.afterItem path around (items ++ [value]))
  | .afterItem _ _ _, .lineEnd => some reading
  | .afterItem path around items, .comma =>
      some (reading.next (.item path around items))
  | .afterItem path around items, .closing => reading.endList? path around items
  | .lineEnd, .lineEnd => some (reading.next .lineStart)
  | _, _ => none

/-- Whether the text may end here. -/
def isComplete (reading : TableReading) : Bool :=
  match reading.stage with
  | .lineStart => true
  | .lineEnd => true
  | _ => false

/-- What a table says, as a record; a heading without keys is an empty record. -/
def toJson (reading : TableReading) : Json :=
  let started := reading.headings.foldl
    (fun found path => Layer.assign (.record []) (path.map PathStep.field) found)
    (.record [])
  reading.entries.foldl
    (fun found entry => Layer.assign entry.2 (entry.1.map PathStep.field) found)
    started

end TableReading

/-- The record that a settings table writes; a byte-order mark in front says nothing. -/
def TableReading.ofText? (text : List Char) : Option Json :=
  match (TableToken.ofText? (Text.withoutMark text)).bind fun tokens =>
      tokens.foldlM TableReading.step? TableReading.start with
  | some reading => if reading.isComplete then some reading.toJson else none
  | none => none

end AnchorScript
