import AnchorScript.Proofs.Json.DistinctKeys
import AnchorScript.Proofs.Json.Fields
import AnchorScript.Settings.Layer

namespace AnchorScript

/-!
# Setting a value along a path

What a layer sets is read back by following names through records. A value that
is set along a path is found at the end of that path, and a path that parts from
it at some name does not notice. What lies below a text is lost; what lies below a
record keeps the fields that the record does not have.
-/

namespace PathStep

/-- Whether a path parts from a path of names at some name. -/
def partsFrom : List PathStep → List String → Bool
  | .field name :: rest, other :: others =>
      name ≠ other || partsFrom rest others
  | _, _ => false

end PathStep

namespace Layer

/-- What stands at the end of a path of names. -/
def valueAt? : List String → Json → Option Json
  | [], value => some value
  | name :: rest, value =>
      (Json.field? (fieldsOf value) name).bind (valueAt? rest)

/-- Without the fields that have a key, that key is lost and no other. -/
private theorem field?_filter_ne
    (key other : String)
    (fields : List (String × Json)) :
    Json.field? (fields.filter fun field => field.1 ≠ key) other =
      if key = other then none else Json.field? fields other := by
  induction fields with
  | nil =>
      simp
  | cons first rest inductionHypothesis =>
      by_cases isLost : first.1 = key
      · rw [List.filter_cons_of_neg (by simp [isLost]),
          inductionHypothesis, Json.field?_cons, isLost]
        by_cases same : key = other <;> simp [same]
      · rw [List.filter_cons_of_pos (by simp [isLost]),
          Json.field?_cons, Json.field?_cons, inductionHypothesis]
        by_cases same : key = other
        · subst same
          simp [isLost]
        · simp [same]

/-- A field put in place of another is found, and the other fields stay. -/
theorem field?_withField
    (key other : String)
    (value : Json)
    (fields : List (String × Json)) :
    Json.field? (withField key value fields) other =
      if key = other then some value else Json.field? fields other := by
  rw [withField, Json.field?_cons, field?_filter_ne]
  by_cases same : key = other <;> simp [same]

/--
Fields laid over others hide those with the same keys. A hidden value can only
show through a record.
-/
theorem field?_fieldsLaidOver
    (below fields : List (String × Json))
    (key : String) :
    ∃ under,
      Json.field? (fieldsLaidOver below fields) key =
        ((Json.field? fields key).map (laidOver under)).or
          (Json.field? below key) := by
  induction fields generalizing below with
  | nil =>
      exact ⟨.null, rfl⟩
  | cons first rest inductionHypothesis =>
      obtain ⟨name, value⟩ := first
      obtain ⟨under, found⟩ :=
        inductionHypothesis
          (withField name (laidOver (fieldOrNull name below) value) below)
      rw [fieldsLaidOver, found, field?_withField, Json.field?_cons]
      cases Json.field? rest key with
      | some later =>
          exact ⟨under, rfl⟩
      | none =>
          refine ⟨fieldOrNull name below, ?_⟩
          by_cases isKey : name = key <;> simp [isKey]

/-- Setting a value below a name changes the field of that name alone. -/
theorem field?_assign
    (value below : Json)
    (name other : String)
    (rest : List PathStep) :
    Json.field? (fieldsOf (assign value (.field name :: rest) below)) other =
      if name = other then
        some (assign value rest (fieldOrNull name (fieldsOf below)))
      else Json.field? (fieldsOf below) other := by
  rw [assign, fieldsOf, field?_withField]

/-- The first entry of a layer is set before the others. -/
theorem apply_cons
    (entry : String × Json)
    (rest : Layer)
    (below : Json) :
    apply (entry :: rest) below =
      apply rest (assign entry.2 (PathStep.ofKey entry.1) below) :=
  rfl

/-- Below a name that is not set there is nothing. -/
theorem valueAt?_fieldOrNull
    (name next : String)
    (rest : List String)
    (below : Json) :
    valueAt? (next :: rest) (fieldOrNull name (fieldsOf below)) =
      valueAt? (name :: next :: rest) below := by
  simp only [valueAt?, fieldOrNull]
  cases Json.field? (fieldsOf below) name <;> rfl

/-- A path that parts from the path of a value does not notice it. -/
theorem valueAt?_assign_of_partsFrom
    {path : List PathStep}
    {names : List String}
    (parts : PathStep.partsFrom path names = true)
    (value below : Json) :
    valueAt? names (assign value path below) = valueAt? names below := by
  fun_induction PathStep.partsFrom path names generalizing below with
  | case2 =>
      cases parts
  | case1 name rest other others inductionHypothesis =>
      rw [valueAt?, field?_assign, valueAt?]
      by_cases same : name = other
      · subst same
        have partsLater : PathStep.partsFrom rest others = true := by
          simpa using parts
        rw [if_pos rfl, Option.bind_some, inductionHypothesis partsLater]
        cases others with
        | nil =>
            cases rest with
            | nil =>
                cases partsLater
            | cons step _ =>
                cases step <;> cases partsLater
        | cons next others =>
            exact valueAt?_fieldOrNull name next others below
      · rw [if_neg same]

/-- A value is found at the end of the path along which it is set. -/
theorem valueAt?_assign_self
    (value below : Json)
    (names : List String) :
    ∃ under,
      valueAt? names (assign value (names.map .field) below) =
        some (laidOver under value) := by
  induction names generalizing below with
  | nil =>
      exact ⟨below, rfl⟩
  | cons name rest inductionHypothesis =>
      obtain ⟨under, found⟩ :=
        inductionHypothesis (fieldOrNull name (fieldsOf below))
      refine ⟨under, ?_⟩
      rw [List.map_cons, valueAt?, field?_assign, if_pos rfl,
        Option.bind_some, found]

/--
A value that is set at a name hides what stood there, and a record hides only the
fields that it has.
-/
theorem valueAt?_assign_name
    {rest : List String}
    {value : Json}
    (shape :
      rest = [] ∨
        ∃ next fields, rest = [next] ∧ value = .record fields)
    (below : Json)
    (name : String) :
    ∃ under,
      valueAt? (name :: rest) (assign value [.field name] below) =
        ((valueAt? rest value).map (laidOver under)).or
          (valueAt? (name :: rest) below) := by
  rcases shape with rfl | ⟨next, fields, rfl, rfl⟩
  · exact valueAt?_assign_self value below [name]
  · obtain ⟨under, found⟩ :=
      field?_fieldsLaidOver
        (fieldsOf (fieldOrNull name (fieldsOf below))) fields next
    refine ⟨under, ?_⟩
    rw [valueAt?, field?_assign, if_pos rfl, Option.bind_some, assign,
      laidOver, valueAt?, fieldsOf, found, ← valueAt?_fieldOrNull]
    simp only [valueAt?, fieldsOf, Option.bind_fun_some]

/--
Of a layer with different keys a path reads the field that bears its first name,
when the other fields part from it.
-/
theorem valueAt?_apply
    {layer : Layer}
    (distinct : Json.HaveDistinctKeys layer)
    {name : String}
    (isName : PathStep.ofKey name = [.field name])
    {rest : List String}
    (shape :
      ∀ field ∈ layer,
        field.1 = name →
          rest = [] ∨
            ∃ next fields, rest = [next] ∧ field.2 = .record fields)
    (othersPart :
      ∀ field ∈ layer,
        field.1 ≠ name →
          PathStep.partsFrom (PathStep.ofKey field.1) (name :: rest) = true)
    (below : Json) :
    ∃ under,
      valueAt? (name :: rest) (apply layer below) =
        ((valueAt? (name :: rest) (.record layer)).map (laidOver under)).or
          (valueAt? (name :: rest) below) := by
  induction layer generalizing below with
  | nil =>
      exact ⟨.null, rfl⟩
  | cons field later inductionHypothesis =>
      obtain ⟨fieldShape, laterShape⟩ := List.forall_mem_cons.mp shape
      obtain ⟨fieldParts, laterPart⟩ := List.forall_mem_cons.mp othersPart
      obtain ⟨isNew, laterDistinct⟩ := List.nodup_cons.mp distinct
      obtain ⟨under, found⟩ :=
        inductionHypothesis laterDistinct laterShape laterPart
          (assign field.2 (PathStep.ofKey field.1) below)
      rw [apply_cons, found]
      by_cases isField : field.1 = name
      · -- The keys are different, so no later field sets this name again.
        have noLater : Json.field? later name = none := by
          rw [Json.field?_eq_none_iff]
          intro other isLater sameKey
          apply isNew
          rw [isField, ← sameKey]
          exact List.mem_map_of_mem isLater
        obtain ⟨fieldUnder, foundField⟩ :=
          valueAt?_assign_name (fieldShape isField) below name
        refine ⟨fieldUnder, ?_⟩
        rw [isField, isName, foundField]
        simp only [valueAt?, fieldsOf, Json.field?_cons, noLater, isField,
          Option.bind_none, Option.map_none, Option.none_or, if_true,
          Option.bind_some]
      · refine ⟨under, ?_⟩
        rw [valueAt?_assign_of_partsFrom (fieldParts isField)]
        simp only [valueAt?, fieldsOf, Json.field?_cons, isField, if_false,
          Option.or_none]

end Layer

end AnchorScript
