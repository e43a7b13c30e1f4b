import AnchorScript.Proofs.Settings.Keys

namespace AnchorScript

/-!
# What layers leave at a key

A variable of the environment sets the text at its own key and nothing else that
is read as a setting. A file sets what it writes at each key, as long as its other
fields lead elsewhere and it writes the sources as a record. So of the text at a
key the environment decides first, and the file where the environment is silent.
-/

namespace Environment

/-- The text of the last variable that sets a key. -/
def text?
    (environment : List (String × String))
    (key : String) :
    Option String :=
  (environment.reverse.find? fun given => key? given.1 = some key).map
    Prod.snd

/-- Later variables count before the first one. -/
theorem text?_cons
    (given : String × String)
    (rest : List (String × String))
    (key : String) :
    text? (given :: rest) key =
      (text? rest key).or
        (if key? given.1 = some key then some given.2 else none) := by
  simp only [text?, List.reverse_cons, List.find?_append]
  cases rest.reverse.find? fun other => key? other.1 = some key with
  | some found =>
      rfl
  | none =>
      by_cases isFirst : key? given.1 = some key <;> simp [isFirst]

end Environment

namespace Settings

namespace TextKey

/-- The name of a key is read as the path that leads to its setting. -/
theorem ofKey_name (key : TextKey) :
    PathStep.ofKey key.name = key.path.map .field := by
  cases key <;> decide +kernel

/-- Different keys have paths that part. -/
theorem partsFrom_path
    {key other : TextKey}
    (different : key ≠ other) :
    PathStep.partsFrom (key.path.map .field) other.path = true := by
  cases key <;> cases other <;> first | exact absurd rfl different | rfl

/-- The path of a text parts from the path of the sources of tools. -/
theorem partsFrom_toolSourcesPath (key : TextKey) :
    PathStep.partsFrom (key.path.map .field) toolSourcesPath = true := by
  cases key <;> rfl

/-- Different keys have different names. -/
theorem name_injective : Function.Injective name := by
  intro key other same
  by_contra different
  have parts := partsFrom_path different
  rw [← ofKey_name, same, ofKey_name] at parts
  cases other <;> cases parts

end TextKey

/-- Each variable that sets a key at all sets one of the texts. -/
def SetsTexts (environment : List (String × String)) : Prop :=
  ∀ given ∈ environment,
    ∀ name,
      Environment.key? given.1 = some name →
        ∃ key : TextKey, name = key.name

/-- The sources stay open when what is set at their name is a record again. -/
theorem HasOpenSources.assign_field
    {below value : Json}
    (isOpen : HasOpenSources below)
    {name : String}
    {rest : List PathStep}
    (isRecord :
      name = "sources" →
        ∀ under, ∃ fields, Layer.assign value rest under = .record fields) :
    HasOpenSources (Layer.assign value (.field name :: rest) below) := by
  intro found isFound
  rw [Layer.field?_assign] at isFound
  by_cases isSources : name = "sources"
  · rw [if_pos isSources] at isFound
    cases isFound
    exact isRecord isSources _
  · rw [if_neg isSources] at isFound
    exact isOpen found isFound

/-- A path that parts from the sources of tools leaves the sources open. -/
theorem HasOpenSources.assign
    {below : Json}
    (isOpen : HasOpenSources below)
    {path : List PathStep}
    (parts : PathStep.partsFrom path toolSourcesPath = true)
    (value : Json) :
    HasOpenSources (Layer.assign value path below) := by
  match path with
  | [] | .item _ :: _ =>
      cases parts
  | .field name :: rest =>
      refine isOpen.assign_field ?_
      rintro rfl under
      -- Below the sources the path has another name, so a record is set there.
      match rest with
      | [] | .item _ :: _ =>
          cases parts
      | .field _ :: _ =>
          exact ⟨_, rfl⟩

/-- A text is found at the key at which it is set, and the other texts stay. -/
theorem valueAt?_assign_text
    (key other : TextKey)
    (text : String)
    (below : Json) :
    Layer.valueAt? other.path
        (Layer.assign (.text text) (key.path.map .field) below) =
      if key = other then some (.text text)
      else Layer.valueAt? other.path below := by
  by_cases same : key = other
  · subst same
    obtain ⟨under, found⟩ :=
      Layer.valueAt?_assign_self (.text text) below key.path
    rw [if_pos rfl, found]
    rfl
  · rw [if_neg same]
    exact
      Layer.valueAt?_assign_of_partsFrom (TextKey.partsFrom_path same) _ below

/-- What variables leave of a value: their own texts over its texts, and the rest of it. -/
structure IsLeftBy
    (environment : List (String × String))
    (below above : Json) :
    Prop where
  text :
    ∀ key : TextKey,
      Layer.valueAt? key.path above =
        ((Environment.text? environment key.name).map Json.text).or
          (Layer.valueAt? key.path below)
  toolSources :
    Layer.valueAt? toolSourcesPath above =
      Layer.valueAt? toolSourcesPath below
  isOpen : HasOpenSources below → HasOpenSources above

/-- A variable that sets a text comes before the variables behind it. -/
theorem IsLeftBy.cons
    {given : String × String}
    {rest : List (String × String)}
    {key : TextKey}
    (isKey : Environment.key? given.1 = some key.name)
    {below above : Json}
    (left :
      IsLeftBy rest
        (Layer.assign (.text given.2) (key.path.map .field) below) above) :
    IsLeftBy (given :: rest) below above where
  text other := by
    rw [left.text, valueAt?_assign_text, Environment.text?_cons, isKey]
    by_cases same : key = other
    · subst same
      rw [if_pos rfl, if_pos rfl]
      cases Environment.text? rest key.name <;> rfl
    · have differentNames : some key.name ≠ some other.name := by
        rwa [Ne, Option.some_inj, TextKey.name_injective.eq_iff]
      rw [if_neg same, if_neg differentNames, Option.or_none]
  toolSources :=
    left.toolSources.trans
      (Layer.valueAt?_assign_of_partsFrom key.partsFrom_toolSourcesPath _ below)
  isOpen isOpen :=
    left.isOpen (isOpen.assign key.partsFrom_toolSourcesPath _)

/-- Variables that set texts leave their texts over those of a value, and the rest of it. -/
theorem isLeftBy_apply
    {environment : List (String × String)}
    (setsTexts : SetsTexts environment)
    (below : Json) :
    IsLeftBy environment below
      (Layer.apply (Environment.layer environment) below) := by
  induction environment generalizing below with
  | nil =>
      exact ⟨fun _ => rfl, rfl, id⟩
  | cons given rest inductionHypothesis =>
      obtain ⟨setsText, restSetsTexts⟩ := List.forall_mem_cons.mp setsTexts
      cases isKey : Environment.key? given.1 with
      | none =>
          have left := inductionHypothesis restSetsTexts below
          rw [Environment.layer,
            List.filterMap_cons_none (by rw [isKey]; rfl)]
          refine ⟨fun key => ?_, left.toolSources, left.isOpen⟩
          rw [Environment.text?_cons, isKey, if_neg (by simp), Option.or_none]
          exact left.text key
      | some name =>
          obtain ⟨key, rfl⟩ := setsText name isKey
          have left :=
            inductionHypothesis restSetsTexts
              (Layer.assign (.text given.2) (key.path.map .field) below)
          rw [Environment.layer,
            List.filterMap_cons_some (by rw [isKey]; rfl), Layer.apply_cons,
            TextKey.ofKey_name]
          exact left.cons isKey

/-- The keys of a file under which settings stand. -/
def plainKeys : List String :=
  ["content_dir", "listen", "log_level", "sources"]

/-- A path that parts from the paths of all settings. -/
structure LeadsElsewhere (path : List PathStep) : Prop where
  text : ∀ key : TextKey, PathStep.partsFrom path key.path = true
  toolSources : PathStep.partsFrom path toolSourcesPath = true

/-- Every field stands under a plain key or leads elsewhere, and the sources are a record. -/
structure IsPlainlyKeyed (fields : List (String × Json)) : Prop where
  distinct : Json.HaveDistinctKeys fields
  plain :
    ∀ field ∈ fields,
      field.1 ∈ plainKeys ∨ LeadsElsewhere (PathStep.ofKey field.1)
  sources :
    ∀ field ∈ fields,
      field.1 = "sources" → ∃ inner, field.2 = .record inner

/-- A plain key is read as a single name. -/
theorem ofKey_of_mem_plainKeys
    {name : String}
    (isPlain : name ∈ plainKeys) :
    PathStep.ofKey name = [.field name] := by
  revert name
  decide +kernel

/-- Among plainly keyed fields a path reads the one that bears its first name. -/
theorem IsPlainlyKeyed.valueAt?_apply
    {fields : List (String × Json)}
    (plainly : IsPlainlyKeyed fields)
    {name : String}
    {rest : List String}
    (isPlain : name ∈ plainKeys)
    (isSource : rest = [] ∨ name = "sources" ∧ ∃ next, rest = [next])
    (elsewhere :
      ∀ path,
        LeadsElsewhere path →
          PathStep.partsFrom path (name :: rest) = true)
    (below : Json) :
    ∃ under,
      Layer.valueAt? (name :: rest) (Layer.apply fields below) =
        ((Layer.valueAt? (name :: rest) (.record fields)).map
            (Layer.laidOver under)).or
          (Layer.valueAt? (name :: rest) below) := by
  refine
    Layer.valueAt?_apply plainly.distinct (ofKey_of_mem_plainKeys isPlain)
      ?shape ?othersPart below
  case shape =>
    intro field isField isNamed
    rcases isSource with isEnd | ⟨isSources, next, isNext⟩
    · exact Or.inl isEnd
    · obtain ⟨inner, isRecord⟩ :=
        plainly.sources field isField (isNamed.trans isSources)
      exact Or.inr ⟨next, inner, isNext, isRecord⟩
  case othersPart =>
    intro field isField isOther
    rcases plainly.plain field isField with fieldPlain | leadsElsewhere
    · rw [ofKey_of_mem_plainKeys fieldPlain]
      simp [PathStep.partsFrom, isOther]
    · exact elsewhere _ leadsElsewhere

/-- The path of a text starts with a plain key and has another name only among the sources. -/
theorem TextKey.path_eq (key : TextKey) :
    ∃ name rest,
      key.path = name :: rest ∧
        name ∈ plainKeys ∧
        (rest = [] ∨ name = "sources" ∧ ∃ next, rest = [next]) := by
  cases key <;> exact ⟨_, _, rfl, by decide, by simp⟩

/-- Plainly keyed fields leave the sources open. -/
theorem IsPlainlyKeyed.hasOpenSources_apply
    {fields : List (String × Json)}
    (plainly : IsPlainlyKeyed fields)
    {below : Json}
    (isOpen : HasOpenSources below) :
    HasOpenSources (Layer.apply fields below) := by
  obtain ⟨-, plain, sources⟩ := plainly
  induction fields generalizing below with
  | nil =>
      exact isOpen
  | cons field rest inductionHypothesis =>
      obtain ⟨fieldPlain, restPlain⟩ := List.forall_mem_cons.mp plain
      obtain ⟨fieldSources, restSources⟩ := List.forall_mem_cons.mp sources
      rw [Layer.apply_cons]
      refine inductionHypothesis ?_ restPlain restSources
      rcases fieldPlain with isPlain | leadsElsewhere
      · rw [ofKey_of_mem_plainKeys isPlain]
        refine isOpen.assign_field fun isSources under => ?_
        obtain ⟨inner, isRecord⟩ := fieldSources isSources
        rw [isRecord]
        exact ⟨_, rfl⟩
      · exact isOpen.assign leadsElsewhere.toolSources field.2

/-- What lies below a value has no say in its text. -/
theorem scalarText?_laidOver
    (under value : Json) :
    scalarText? (Layer.laidOver under value) = scalarText? value := by
  cases value <;> rfl

/-- What lies below a value has no say in its texts. -/
theorem listTexts?_laidOver
    (under value : Json) :
    listTexts? (Layer.laidOver under value) = listTexts? value := by
  cases value <;> rfl

/-- A reading that looks at no value below another reads what was laid over it. -/
theorem readOr?_laidOver
    {α : Type}
    {read? : Json → Option α}
    (ignoresBelow :
      ∀ under value, read? (Layer.laidOver under value) = read? value)
    (standard : α)
    (under : Json)
    (found? : Option Json) :
    readOr? read? standard (found?.map (Layer.laidOver under)) =
      readOr? read? standard found? := by
  cases found? with
  | none =>
      rfl
  | some value =>
      exact ignoresBelow under value

/--
Plainly keyed fields under variables that set texts give settings just when, at
each key, the variables or else the fields have a text.
-/
theorem ofLayers_eq_ok_iff
    {fields : List (String × Json)}
    (plainly : IsPlainlyKeyed fields)
    {environment : List (String × String)}
    (setsTexts : SetsTexts environment)
    {settings : Settings} :
    ofLayers [fields, Environment.layer environment] = .ok settings ↔
      (∀ key : TextKey,
        (Environment.text? environment key.name).or
            (readOr? scalarText? key.standard
              (Layer.valueAt? key.path (.record fields))) =
          some (key.textIn settings)) ∧
        readOr? listTexts? standardToolSources
            (Layer.valueAt? toolSourcesPath (.record fields)) =
          some settings.sources.toolSources := by
  have left := isLeftBy_apply setsTexts (Layer.apply fields (.record []))
  have isOpen : HasOpenSources (.record []) := nofun
  have nothing (name : String) (rest : List String) :
      Layer.valueAt? (name :: rest) (.record []) = none :=
    rfl
  have atText (key : TextKey) :
      readOr? scalarText? key.standard
          (Layer.valueAt? key.path
            (Layer.apply (Environment.layer environment)
              (Layer.apply fields (.record [])))) =
        (Environment.text? environment key.name).or
          (readOr? scalarText? key.standard
            (Layer.valueAt? key.path (.record fields))) := by
    rw [left.text]
    cases Environment.text? environment key.name with
    | some text =>
        rfl
    | none =>
        obtain ⟨name, rest, isPath, isPlain, isSource⟩ := key.path_eq
        obtain ⟨under, found⟩ :=
          plainly.valueAt?_apply isPlain isSource
            (fun _ leadsElsewhere => isPath ▸ leadsElsewhere.text key)
            (.record [])
        rw [Option.map_none, Option.none_or, Option.none_or, isPath, found,
          nothing, Option.or_none, readOr?_laidOver scalarText?_laidOver]
  have atToolSources :
      readOr? listTexts? standardToolSources
          (Layer.valueAt? toolSourcesPath
            (Layer.apply (Environment.layer environment)
              (Layer.apply fields (.record [])))) =
        readOr? listTexts? standardToolSources
          (Layer.valueAt? toolSourcesPath (.record fields)) := by
    obtain ⟨under, found⟩ :=
      plainly.valueAt?_apply (by decide : "sources" ∈ plainKeys)
        (Or.inr ⟨rfl, "tool_sources", rfl⟩)
        (fun _ leadsElsewhere => leadsElsewhere.toolSources)
        (.record [])
    rw [left.toolSources, toolSourcesPath, found, nothing, Option.or_none,
      readOr?_laidOver listTexts?_laidOver]
  rw [ofLayers, List.foldl_cons, List.foldl_cons, List.foldl_nil,
    ofJson_eq_ok_iff (left.isOpen (plainly.hasOpenSources_apply isOpen)),
    atToolSources]
  simp only [atText]

end Settings

end AnchorScript
