import AnchorScript.Content.Call
import AnchorScript.Content.FileTree
import AnchorScript.Content.SourceName
import AnchorScript.Json.Reader
import AnchorScript.Settings.Environment
import AnchorScript.Settings.Table

namespace AnchorScript

/-!
# Settings

The program's settings start from defaults. A settings file is laid over them,
and the environment over the file, each key by itself. Every setting but the
list of tools is a text; flags and numbers are taken as the text that writes
them. Keys that mean nothing are ignored.
-/

/-- Where content is read from, where the service listens, and what it logs. -/
structure Settings where
  contentDirectory : String := "src/content/stl"
  listen : String := "127.0.0.1:4321"
  logLevel : String := "info"
  sources : SourceNames := {}
deriving Repr, DecidableEq, Inhabited

namespace Settings

/-- Numbers are written without a power of ten, and a zero keeps its sign. -/
def numberLayout : NumberLayout where
  isPositional := fun _ => true
  signedZero := true
  notANumber := "NaN"
  infinity := "inf"

/-- The text of a text, a flag or a number. -/
def scalarText? : Json → Option String
  | .text characters => some characters
  | .flag truth => some (if truth then "true" else "false")
  | .integer whole => some (toString whole)
  | .number binary => some (String.ofList (numberLayout.text binary))
  | _ => none

/-- The text of a setting, the standard one when it is not set. -/
def textAt
    (fields : List (String × Json))
    (key standard : String) :
    Except Fault String :=
  match Json.field? fields key with
  | none => .ok standard
  | some value =>
      match scalarText? value with
      | some text => .ok text
      | none => .error (.settings ("expected a text for key " ++ key))

/-- The texts of a list setting, the standard ones when it is not set. -/
def textsAt
    (fields : List (String × Json))
    (key : String)
    (standard : List String) :
    Except Fault (List String) :=
  match Json.field? fields key with
  | none => .ok standard
  | some value =>
      let texts? :=
        match value with
        | .list items => items.mapM scalarText?
        | _ => none
      match texts? with
      | some texts => .ok texts
      | none => .error (.settings ("expected a list of texts for key " ++ key))

/-- The source names that fields set. -/
def sourcesOf
    (fields : List (String × Json))
    (standard : SourceNames) :
    Except Fault SourceNames := do
  return {
    navigation := ← textAt fields "nav" standard.navigation
    tools := ← textAt fields "tools" standard.tools
    docsNavigation := ← textAt fields "docs_nav" standard.docsNavigation
    comparison := ← textAt fields "aso" standard.comparison
    toolSources := ← textsAt fields "tool_sources" standard.toolSources }

/-- The keys of the source names, in the order in which a list gives them. -/
def sourceKeys : List String :=
  ["nav", "tools", "docs_nav", "aso", "tool_sources"]

/-- The source names under their key: by name in a record, by position in a list. -/
def sourcesAt
    (fields : List (String × Json))
    (standard : SourceNames) :
    Except Fault SourceNames :=
  match Json.field? fields "sources" with
  | none => .ok standard
  | some (.record inner) => sourcesOf inner standard
  | some (.list items) => sourcesOf (sourceKeys.zip items) standard
  | some _ => .error (.settings "expected a record or a list for key sources")

/-- The settings that a value writes. -/
def ofJson (value : Json) : Except Fault Settings := do
  let fields := Layer.fieldsOf value
  let standard : Settings := {}
  return {
    contentDirectory := ← textAt fields "content_dir" standard.contentDirectory
    listen := ← textAt fields "listen" standard.listen
    logLevel := ← textAt fields "log_level" standard.logLevel
    sources := ← sourcesAt fields standard.sources }

/-- The settings of layers, the later ones over the earlier ones. -/
def ofLayers (layers : List Layer) : Except Fault Settings :=
  ofJson (layers.foldl (fun found layer => layer.apply found) (.record []))

/-- The characters of a settings file, without the mark of its encoding. -/
def fileCharacters (content : ByteArray) : List Char :=
  Text.withoutMark (Text.characters content.toList)

/-- The layer that a file in the form of a table writes. -/
def tableLayer (content : ByteArray) : Except Fault Layer :=
  match TableReading.ofText? (fileCharacters content) with
  | some value => .ok (Layer.fieldsOf value)
  | none => .error (.settings "the settings file is not a valid table")

/-- The layer that a JSON file writes; only a record is one. -/
def jsonLayer (content : ByteArray) : Except Fault Layer :=
  match Json.ofText? (fileCharacters content) with
  | some (.record fields) => .ok fields
  | _ => .error (.settings "the settings file is not a JSON record")

/-- The bytes of a regular file, if one stands at the name. -/
def file? (tree : FileTree) (name : String) : Option ByteArray :=
  match tree.follow [name] with
  | .ok (.file content) => some content
  | _ => none

/--
The layer of the settings file in a directory. A table goes before JSON, and a
file with the bare name of the program goes before both but says nothing.
-/
def fileLayer (tree : FileTree) : Except Fault Layer :=
  let found? (suffix : String) := file? tree (Environment.programName ++ suffix)
  match found? "", found? ".toml", found? ".json" with
  | some _, _, _ => .ok []
  | none, some content, _ => tableLayer content
  | none, none, some content => jsonLayer content
  | none, none, none => .ok []

/-- The settings of a directory and an environment. -/
def load
    (tree : FileTree)
    (environment : List (String × String)) :
    Except Fault Settings := do
  ofLayers [← fileLayer tree, Environment.layer environment]

/--
The parts of the name of a directory. Repeated slashes mean nothing, and neither
do single dots, except in front.
-/
def directoryParts (name : String) : List String :=
  match SourceName.segments name with
  | [""] => []
  | first :: others =>
      first :: others.filter fun segment => !SourceName.staysPut segment
  | [] => []

/-- Whether settings are the standard ones, however the directory is written. -/
def isStandard (settings : Settings) : Bool :=
  let standard : Settings := {}
  directoryParts settings.contentDirectory =
      directoryParts standard.contentDirectory ∧
    { settings with contentDirectory := standard.contentDirectory } = standard

end Settings

end AnchorScript
