import AnchorScript.Proofs.Json.Equality
import AnchorScript.Proofs.Settings.Layering

namespace AnchorScript.Settings

/-!
# Settings are loaded key by key

Settings are loaded from a JSON file, or none, and from variables that set texts.
Each key is decided by itself: by its variable, even an empty one, else by the file,
else by the standard. A value of another kind in the file fails the load only where
no variable covers it. All this needs the fields of the file to stand under plain
keys or to lead elsewhere, because a key of a file is a path like any other.
-/

/-- There is no settings file and no field, or a JSON file that writes the fields. -/
inductive WritesFields (tree : FileTree) : List (String × Json) → Prop where
  | absent
      (noBare : file? tree "stlreader" = none)
      (noTable : file? tree "stlreader.toml" = none)
      (noJson : file? tree "stlreader.json" = none) :
      WritesFields tree []
  | json
      {content : ByteArray}
      {fields : List (String × Json)}
      (noBare : file? tree "stlreader" = none)
      (noTable : file? tree "stlreader.toml" = none)
      (isJson : file? tree "stlreader.json" = some content)
      (reads : Json.ofText? (fileCharacters content) = some (.record fields)) :
      WritesFields tree fields

/-- The file writes sources as a record if at all, and each variable sets a text. -/
structure IsLayered
    (tree : FileTree)
    (environment : List (String × String))
    (fields : List (String × Json)) :
    Prop where
  file : WritesFields tree fields
  sources :
    ∀ field ∈ fields,
      field.1 = "sources" → ∃ inner, field.2 = .record inner
  setsTexts : SetsTexts environment

/-- Every field stands under a plain key or leads elsewhere. -/
def AddressesPlainly (fields : List (String × Json)) : Prop :=
  ∀ field ∈ fields,
    field.1 ∈ plainKeys ∨ LeadsElsewhere (PathStep.ofKey field.1)

/-- Loading looks at each key by itself: at the environment, the file, and the standard. -/
structure LoadsPerKey
    (tree : FileTree)
    (environment : List (String × String))
    (fields : List (String × Json)) :
    Prop where
  succeeds_iff :
    (∃ settings, load tree environment = .ok settings) ↔
      (∀ key : TextKey,
        Environment.text? environment key.name = none →
          ∀ value,
            Layer.valueAt? key.path (.record fields) = some value →
              ∃ text, scalarText? value = some text) ∧
        ∀ value,
          Layer.valueAt? toolSourcesPath (.record fields) = some value →
            ∃ texts, listTexts? value = some texts
  text_eq :
    ∀ settings,
      load tree environment = .ok settings →
        ∀ key : TextKey,
          key.textIn settings =
            (Environment.text? environment key.name).getD
              (((Layer.valueAt? key.path (.record fields)).bind
                scalarText?).getD key.standard)
  toolSources_eq :
    ∀ settings,
      load tree environment = .ok settings →
        settings.sources.toolSources =
          ((Layer.valueAt? toolSourcesPath (.record fields)).bind
            listTexts?).getD standardToolSources

/-- The layer of a directory is what its file writes. -/
theorem WritesFields.fileLayer_eq
    {tree : FileTree}
    {fields : List (String × Json)}
    (writes : WritesFields tree fields) :
    fileLayer tree = .ok fields := by
  have bareName : Environment.programName ++ "" = "stlreader" := rfl
  have tableName : Environment.programName ++ ".toml" = "stlreader.toml" := rfl
  have jsonName : Environment.programName ++ ".json" = "stlreader.json" := rfl
  cases writes with
  | absent noBare noTable noJson =>
      simp only [fileLayer, bareName, tableName, jsonName, noBare, noTable,
        noJson]
  | json noBare noTable isJson reads =>
      simp only [fileLayer, bareName, tableName, jsonName, noBare, noTable,
        isJson, jsonLayer, reads]

/-- A file writes fields with different keys. -/
theorem WritesFields.distinct
    {tree : FileTree}
    {fields : List (String × Json)}
    (writes : WritesFields tree fields) :
    Json.HaveDistinctKeys fields := by
  cases writes with
  | absent =>
      exact List.nodup_nil
  | json _ _ _ reads =>
      exact Json.haveDistinctKeys_of_ofText? reads

/-- What is loaded has, at each key, the text of the environment or else of the file. -/
theorem IsLayered.load_eq_ok_iff
    {tree : FileTree}
    {environment : List (String × String)}
    {fields : List (String × Json)}
    (isLayered : IsLayered tree environment fields)
    (plainly : AddressesPlainly fields)
    {settings : Settings} :
    load tree environment = .ok settings ↔
      (∀ key : TextKey,
        (Environment.text? environment key.name).or
            (readOr? scalarText? key.standard
              (Layer.valueAt? key.path (.record fields))) =
          some (key.textIn settings)) ∧
        readOr? listTexts? standardToolSources
            (Layer.valueAt? toolSourcesPath (.record fields)) =
          some settings.sources.toolSources := by
  have plainlyKeyed : IsPlainlyKeyed fields :=
    ⟨isLayered.file.distinct, plainly, isLayered.sources⟩
  rw [← ofLayers_eq_ok_iff plainlyKeyed isLayered.setsTexts, load,
    isLayered.file.fileLayer_eq]
  rfl

/-- Layers that are addressed plainly are loaded key by key. -/
theorem IsLayered.loadsPerKey
    {tree : FileTree}
    {environment : List (String × String)}
    {fields : List (String × Json)}
    (isLayered : IsLayered tree environment fields)
    (plainly : AddressesPlainly fields) :
    LoadsPerKey tree environment fields where
  succeeds_iff := by
    simp only [isLayered.load_eq_ok_iff plainly]
    constructor
    · rintro ⟨settings, texts, toolSources⟩
      refine ⟨fun key notSet => ?_, exists_readOr?_iff.mp ⟨_, toolSources⟩⟩
      have reads := texts key
      rw [notSet, Option.none_or] at reads
      exact exists_readOr?_iff.mp ⟨_, reads⟩
    · rintro ⟨haveTexts, haveToolSources⟩
      have haveText (key : TextKey) :
          ∃ text,
            (Environment.text? environment key.name).or
                (readOr? scalarText? key.standard
                  (Layer.valueAt? key.path (.record fields))) =
              some text := by
        cases isSet : Environment.text? environment key.name with
        | some text =>
            exact ⟨text, rfl⟩
        | none =>
            exact exists_readOr?_iff.mpr (haveTexts key isSet)
      choose text isText using haveText
      obtain ⟨toolSources, isToolSources⟩ :=
        exists_readOr?_iff.mpr haveToolSources
      refine ⟨ofTexts text toolSources, fun key => ?_, isToolSources⟩
      rw [textIn_ofTexts, isText]
  text_eq settings loaded key := by
    have reads := ((isLayered.load_eq_ok_iff plainly).mp loaded).1 key
    cases isSet : Environment.text? environment key.name with
    | some text =>
        rw [isSet, Option.some_or, Option.some_inj] at reads
        exact reads.symm
    | none =>
        rw [isSet, Option.none_or] at reads
        exact eq_getD_of_readOr? reads
  toolSources_eq settings loaded :=
    eq_getD_of_readOr? ((isLayered.load_eq_ok_iff plainly).mp loaded).2

/--
Settings are loaded key by key: each text is the one of the environment, else of the
file, else the standard, and loading fails just when some value that is needed has
no text. So two loads that are given the same at a key find the same there, whatever
they are given at other keys, be it beside it among the sources.
-/
theorem load_perKey
    {tree : FileTree}
    {environment : List (String × String)}
    {fields : List (String × Json)}
    (isLayered : IsLayered tree environment fields)
    (plainly : AddressesPlainly fields) :
    LoadsPerKey tree environment fields ∧
      ∀ otherTree otherEnvironment otherFields,
        IsLayered otherTree otherEnvironment otherFields →
          AddressesPlainly otherFields →
            ∀ settings otherSettings,
              load tree environment = .ok settings →
                load otherTree otherEnvironment = .ok otherSettings →
                  (∀ key : TextKey,
                    Environment.text? environment key.name =
                        Environment.text? otherEnvironment key.name →
                      Layer.valueAt? key.path (.record fields) =
                          Layer.valueAt? key.path (.record otherFields) →
                        key.textIn settings = key.textIn otherSettings) ∧
                    (Layer.valueAt? toolSourcesPath (.record fields) =
                        Layer.valueAt? toolSourcesPath
                          (.record otherFields) →
                      settings.sources.toolSources =
                        otherSettings.sources.toolSources) := by
  have loads := isLayered.loadsPerKey plainly
  refine ⟨loads, ?_⟩
  intro otherTree otherEnvironment otherFields otherLayered otherPlainly
    settings otherSettings loaded otherLoaded
  have otherLoads := otherLayered.loadsPerKey otherPlainly
  constructor
  · intro key sameText sameValue
    rw [loads.text_eq settings loaded key,
      otherLoads.text_eq otherSettings otherLoaded key, sameText, sameValue]
  · intro sameValue
    rw [loads.toolSources_eq settings loaded,
      otherLoads.toolSources_eq otherSettings otherLoaded, sameValue]

/--
An empty variable covers the list for the address. The file sets one of the
sources and a variable another one; the third one stays standard.
-/
theorem load_perKey_partly_set :
    let tree : FileTree :=
      .directory
        [("stlreader.json",
          .file
            "\x7b\"listen\":[1],\"a.nav\":2,\"sources\":\x7b\"tools\":7\x7d\x7d".toUTF8)]
    let fields :=
      [("listen", .list [.integer 1]), ("a.nav", .integer 2),
        ("sources", .record [("tools", .integer 7)])]
    let environment :=
      [("stlreader__Listen", ""), ("STLREADER__SOURCES__NAV", "n.stl")]
    IsLayered tree environment fields ∧
      AddressesPlainly fields ∧
      ∃ settings,
        load tree environment = .ok settings ∧
          settings.listen = "" ∧
          settings.sources.navigation = "n.stl" ∧
          settings.sources.tools = "7" ∧
          settings.sources.comparison = "aso.stl" := by
  intro tree fields environment
  have setsTexts : SetsTexts environment := by
    have listen :
        Environment.key? "stlreader__Listen" = some TextKey.listen.name := by
      decide +kernel
    have navigation :
        Environment.key? "STLREADER__SOURCES__NAV" =
          some TextKey.navigation.name := by
      decide +kernel
    simp only [SetsTexts, environment, List.forall_mem_cons, listen,
      navigation, Option.some_inj]
    exact ⟨fun _ same => ⟨_, same.symm⟩, fun _ same => ⟨_, same.symm⟩, nofun⟩
  have isLayered : IsLayered tree environment fields :=
    ⟨.json rfl rfl rfl (by decide +kernel), by simp [fields], setsTexts⟩
  have elsewhere : LeadsElsewhere (PathStep.ofKey "a.nav") :=
    ⟨fun key => by cases key <;> decide +kernel, by decide +kernel⟩
  have plainly : AddressesPlainly fields := by
    simp only [AddressesPlainly, fields, List.forall_mem_cons]
    exact ⟨Or.inl (by decide), Or.inr elsewhere, Or.inl (by decide), nofun⟩
  obtain ⟨loads, -⟩ := load_perKey isLayered plainly
  have haveTexts
      (key : TextKey)
      (notSet : Environment.text? environment key.name = none)
      (value : Json)
      (stands : Layer.valueAt? key.path (.record fields) = some value) :
      ∃ text, scalarText? value = some text := by
    cases key with
    | listen =>
        exact absurd notSet (by decide +kernel)
    | tools =>
        cases stands
        exact ⟨"7", by decide⟩
    | _ =>
        cases stands
  obtain ⟨settings, loaded⟩ := loads.succeeds_iff.mpr ⟨haveTexts, nofun⟩
  have texts := loads.text_eq settings loaded
  refine ⟨isLayered, plainly, settings, loaded, ?_, ?_, ?_, ?_⟩
  · exact (texts .listen).trans (by decide +kernel)
  · exact (texts .navigation).trans (by decide +kernel)
  · exact (texts .tools).trans (by decide +kernel)
  · exact (texts .comparison).trans (by decide +kernel)

/--
A file may write a path as a key. One that makes a list of a setting, of which the
file has no other field, fails the load; one that leads to a setting sets it.
-/
theorem load_not_perKey_of_path :
    let failing : FileTree :=
      .directory
        [("stlreader.json",
          .file "\x7b\"sources.nav[0]\":\"z\"\x7d".toUTF8)]
    let setting : FileTree :=
      .directory
        [("stlreader.json", .file "\x7b\"sources.nav\":\"z\"\x7d".toUTF8)]
    (IsLayered failing [] [("sources.nav[0]", .text "z")] ∧
        (∀ settings, load failing [] ≠ .ok settings) ∧
        ¬LoadsPerKey failing [] [("sources.nav[0]", .text "z")]) ∧
      IsLayered setting [] [("sources.nav", .text "z")] ∧
        (∃ settings,
          load setting [] = .ok settings ∧
            settings.sources.navigation = "z") ∧
        ¬LoadsPerKey setting [] [("sources.nav", .text "z")] := by
  intro failing setting
  have fails : ∀ settings, load failing [] ≠ .ok settings := by
    have isError : (load failing []).isOk = false := by decide +kernel
    intro settings loaded
    rw [loaded] at isError
    cases isError
  have failsPerKey :
      ¬LoadsPerKey failing [] [("sources.nav[0]", .text "z")] := by
    intro loads
    have noText
        (key : TextKey)
        (_ : Environment.text? [] key.name = none)
        (value : Json)
        (stands :
          Layer.valueAt? key.path
              (.record [("sources.nav[0]", .text "z")]) =
            some value) :
        ∃ text, scalarText? value = some text := by
      cases key <;> cases stands
    obtain ⟨settings, loaded⟩ := loads.succeeds_iff.mpr ⟨noText, nofun⟩
    exact fails settings loaded
  have sets :
      ∃ settings,
        load setting [] = .ok settings ∧
          settings.sources.navigation = "z" := by
    have isOk :
        (load setting []).toOption =
          some { sources := { navigation := "z" } } := by
      decide +kernel
    cases loaded : load setting [] with
    | error fault =>
        rw [loaded] at isOk
        cases isOk
    | ok settings =>
        rw [loaded] at isOk
        cases isOk
        exact ⟨_, rfl, rfl⟩
  have setsPerKey :
      ¬LoadsPerKey setting [] [("sources.nav", .text "z")] := by
    intro loads
    obtain ⟨settings, loaded, isSet⟩ := sets
    have isStandard := loads.text_eq settings loaded .navigation
    rw [show TextKey.navigation.textIn settings = "z" from isSet] at isStandard
    exact absurd isStandard (by decide +kernel)
  have failingLayered :
      IsLayered failing [] [("sources.nav[0]", .text "z")] :=
    ⟨.json rfl rfl rfl (by decide +kernel), by simp, nofun⟩
  have settingLayered : IsLayered setting [] [("sources.nav", .text "z")] :=
    ⟨.json rfl rfl rfl (by decide +kernel), by simp, nofun⟩
  exact
    ⟨⟨failingLayered, fails, failsPerKey⟩, settingLayered, sets, setsPerKey⟩

end AnchorScript.Settings
