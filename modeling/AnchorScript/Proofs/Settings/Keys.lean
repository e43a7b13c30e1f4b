import AnchorScript.Proofs.Settings.Assignment
import AnchorScript.Settings.Basic

namespace AnchorScript.Settings

/-!
# Settings by their keys

Every setting but the list of tools is a text under a key of its own: a name, or a
name among those of the sources. Settings are read from a value just when there is,
at each key, nothing or something that has a text. So no key has a say in what is
read at another.
-/

/-- The keys of the settings that are texts. -/
inductive TextKey where
  | contentDirectory
  | listen
  | logLevel
  | navigation
  | tools
  | docsNavigation
  | comparison
deriving Repr, DecidableEq

namespace TextKey

/-- The names that lead to a setting. -/
def path : TextKey → List String
  | contentDirectory => ["content_dir"]
  | listen => ["listen"]
  | logLevel => ["log_level"]
  | navigation => ["sources", "nav"]
  | tools => ["sources", "tools"]
  | docsNavigation => ["sources", "docs_nav"]
  | comparison => ["sources", "aso"]

/-- A key in one text, with dots between its names. -/
def name (key : TextKey) : String :=
  ".".intercalate key.path

/-- The text under a key. -/
def textIn (key : TextKey) (settings : Settings) : String :=
  match key with
  | contentDirectory => settings.contentDirectory
  | listen => settings.listen
  | logLevel => settings.logLevel
  | navigation => settings.sources.navigation
  | tools => settings.sources.tools
  | docsNavigation => settings.sources.docsNavigation
  | comparison => settings.sources.comparison

/-- The text under a key when it is not set. -/
def standard (key : TextKey) : String :=
  key.textIn {}

end TextKey

/-- The names that lead to the sources of tools. -/
def toolSourcesPath : List String :=
  ["sources", "tool_sources"]

/-- The sources of tools when they are not set. -/
def standardToolSources : List String :=
  SourceNames.toolSources {}

/-- Settings with the given texts under their keys. -/
def ofTexts (text : TextKey → String) (toolSources : List String) : Settings where
  contentDirectory := text .contentDirectory
  listen := text .listen
  logLevel := text .logLevel
  sources :=
    { navigation := text .navigation
      tools := text .tools
      docsNavigation := text .docsNavigation
      comparison := text .comparison
      toolSources := toolSources }

@[simp] theorem textIn_ofTexts
    (text : TextKey → String)
    (toolSources : List String)
    (key : TextKey) :
    key.textIn (ofTexts text toolSources) = text key := by
  cases key <;> rfl

/-- The texts of a list of texts, flags and numbers. -/
def listTexts? : Json → Option (List String)
  | .list items => items.mapM scalarText?
  | _ => none

/-- What is read where a value may stand. -/
def readOr?
    {α : Type}
    (read? : Json → Option α)
    (standard : α) :
    Option Json → Option α
  | none => some standard
  | some value => read? value

/-- Something can be read where nothing stands, or a value that can be read. -/
theorem exists_readOr?_iff
    {α : Type}
    {read? : Json → Option α}
    {standard : α}
    {found? : Option Json} :
    (∃ result, readOr? read? standard found? = some result) ↔
      ∀ value, found? = some value → ∃ result, read? value = some result := by
  cases found? <;> simp [readOr?]

/-- What is read is what the value says, or the standard. -/
theorem eq_getD_of_readOr?
    {α : Type}
    {read? : Json → Option α}
    {standard result : α}
    {found? : Option Json}
    (reads : readOr? read? standard found? = some result) :
    result = (found?.bind read?).getD standard := by
  cases found? with
  | none =>
      cases reads
      rfl
  | some value =>
      rw [Option.bind_some, show read? value = some result from reads,
        Option.getD_some]

/-- Fields give a text for a key just when it is read at the key. -/
theorem textAt_eq_ok_iff
    {fields : List (String × Json)}
    {key standard text : String} :
    textAt fields key standard = .ok text ↔
      readOr? scalarText? standard (Json.field? fields key) = some text := by
  unfold textAt
  cases Json.field? fields key with
  | none =>
      simp [readOr?]
  | some value =>
      cases found : scalarText? value <;> simp [readOr?, found]

/-- Fields give texts for a key just when they are read at the key. -/
theorem textsAt_eq_ok_iff
    {fields : List (String × Json)}
    {key : String}
    {standard texts : List String} :
    textsAt fields key standard = .ok texts ↔
      readOr? listTexts? standard (Json.field? fields key) = some texts := by
  unfold textsAt
  cases Json.field? fields key with
  | none =>
      simp [readOr?]
  | some value =>
      cases value with
      | list items =>
          simp only [readOr?, listTexts?]
          cases items.mapM scalarText? <;> simp
      | _ =>
          simp [readOr?, listTexts?]

/-- A result that is bound succeeds when both parts do. -/
private theorem bind_eq_ok_iff
    {α β : Type}
    {first : Except Fault α}
    {next : α → Except Fault β}
    {last : β} :
    (first >>= next) = .ok last ↔
      ∃ found, first = .ok found ∧ next found = .ok last := by
  cases first with
  | error fault =>
      exact iff_of_false nofun fun ⟨_, failed, _⟩ => nomatch failed
  | ok found =>
      simp only [Except.ok.injEq, exists_eq_left']
      rfl

/-- Fields give source names just when each of them is read at its key. -/
theorem sourcesOf_eq_ok_iff
    {fields : List (String × Json)}
    {standard names : SourceNames} :
    sourcesOf fields standard = .ok names ↔
      (readOr? scalarText? standard.navigation (Json.field? fields "nav") =
          some names.navigation ∧
        readOr? scalarText? standard.tools (Json.field? fields "tools") =
          some names.tools ∧
        readOr? scalarText? standard.docsNavigation (Json.field? fields "docs_nav") =
          some names.docsNavigation ∧
        readOr? scalarText? standard.comparison (Json.field? fields "aso") =
          some names.comparison) ∧
        readOr? listTexts? standard.toolSources (Json.field? fields "tool_sources") =
          some names.toolSources := by
  simp only [sourcesOf, bind_eq_ok_iff, textAt_eq_ok_iff, textsAt_eq_ok_iff]
  constructor
  · rintro ⟨_, nav, _, tools, _, docs, _, comparison, _, list, ⟨⟩⟩
    exact ⟨⟨nav, tools, docs, comparison⟩, list⟩
  · rintro ⟨⟨nav, tools, docs, comparison⟩, list⟩
    exact ⟨_, nav, _, tools, _, docs, _, comparison, _, list, rfl⟩

/-- The sources of a value are not set, or set by a record. -/
def HasOpenSources (value : Json) : Prop :=
  ∀ found,
    Json.field? (Layer.fieldsOf value) "sources" = some found →
      ∃ fields, found = .record fields

/-- A record of sources sets the source names by its fields; without one nothing is set. -/
theorem sourcesAt_of_hasOpenSources
    {value : Json}
    (isOpen : HasOpenSources value)
    (standard : SourceNames) :
    sourcesAt (Layer.fieldsOf value) standard =
      sourcesOf
        (Layer.fieldsOf
          (Layer.fieldOrNull "sources" (Layer.fieldsOf value)))
        standard := by
  unfold sourcesAt Layer.fieldOrNull
  cases found : Json.field? (Layer.fieldsOf value) "sources" with
  | none =>
      rfl
  | some inner =>
      obtain ⟨fields, rfl⟩ := isOpen inner found
      rfl

/-- Settings are read from a value just when each of them is read at its key. -/
theorem ofJson_eq_ok_iff
    {value : Json}
    (isOpen : HasOpenSources value)
    {settings : Settings} :
    ofJson value = .ok settings ↔
      (∀ key : TextKey,
        readOr? scalarText? key.standard (Layer.valueAt? key.path value) =
          some (key.textIn settings)) ∧
        readOr? listTexts? standardToolSources (Layer.valueAt? toolSourcesPath value) =
          some settings.sources.toolSources := by
  have atName (name : String) :
      Layer.valueAt? [name] value =
        Json.field? (Layer.fieldsOf value) name :=
    Option.bind_fun_some _
  have amongSources (name : String) :
      Layer.valueAt? ["sources", name] value =
        Json.field?
          (Layer.fieldsOf
            (Layer.fieldOrNull "sources" (Layer.fieldsOf value))) name := by
    rw [← Layer.valueAt?_fieldOrNull]
    exact Option.bind_fun_some _
  simp only [ofJson, bind_eq_ok_iff, sourcesAt_of_hasOpenSources isOpen,
    sourcesOf_eq_ok_iff, textAt_eq_ok_iff, ← atName, ← amongSources]
  constructor
  · rintro
      ⟨_, content, _, listen, _, level, _, ⟨⟨nav, tools, docs, comparison⟩, list⟩,
        ⟨⟩⟩
    refine ⟨fun key => ?_, list⟩
    cases key with
    | contentDirectory => exact content
    | listen => exact listen
    | logLevel => exact level
    | navigation => exact nav
    | tools => exact tools
    | docsNavigation => exact docs
    | comparison => exact comparison
  · rintro ⟨texts, list⟩
    exact
      ⟨_, texts .contentDirectory, _, texts .listen, _, texts .logLevel, _,
        ⟨⟨texts .navigation, texts .tools, texts .docsNavigation,
          texts .comparison⟩, list⟩,
        rfl⟩

end AnchorScript.Settings
