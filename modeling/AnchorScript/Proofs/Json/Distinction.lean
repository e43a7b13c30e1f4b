import AnchorScript.Proofs.Json.Agreement

namespace AnchorScript

/-!
# Documents are known by their JSON

Every part of a document can be told from its JSON value: the kinds of JSON keep
apart the kinds of values, a scope that is absent from one that is empty, and the
keys of records those of the modifiers. So documents with finite numbers have the
same JSON value only when they are the same, and values that agree only when they
agree.
-/

/-- Lists that a function makes the same are the same, if it keeps their items apart. -/
private theorem eq_of_map_eq
    {α β : Type}
    {change : α → β}
    {left right : List α}
    (keepsApart :
      ∀ item ∈ left, ∀ other ∈ right, change item = change other → item = other)
    (same : left.map change = right.map change) :
    left = right := by
  rw [← List.forall₂_eq_eq_eq, List.forall₂_map_left_iff,
    List.forall₂_map_right_iff, List.forall₂_iff_zip] at same
  rw [← List.forall₂_eq_eq_eq, List.forall₂_iff_zip]
  refine ⟨same.1, fun {item other} member => ?_⟩
  obtain ⟨inLeft, inRight⟩ := List.of_mem_zip member
  exact keepsApart item inLeft other inRight (same.2 member)

namespace Json

/-- Fields that agree one by one make records that agree. -/
private theorem agrees_record_of_forall₂
    {fields others : List (String × Json)}
    (same :
      List.Forall₂
        (fun field other => field.1 = other.1 ∧ Agrees field.2 other.2)
        fields others) :
    Agrees (.record fields) (.record others) := by
  refine Agrees.record fun key => ?_
  induction same with
  | nil =>
      exact Option.Rel.none
  | @cons field other rest otherRest first _ inductionHypothesis =>
      rw [field?_cons, field?_cons, first.1]
      generalize field? rest key = later at inductionHypothesis ⊢
      generalize field? otherRest key = otherLater at inductionHypothesis ⊢
      cases inductionHypothesis with
      | some laterAgrees =>
          exact Option.Rel.some laterAgrees
      | none =>
          simp only [Option.none_or]
          split
          · exact Option.Rel.some first.2
          · exact Option.Rel.none

/-- Records that agree have fields that agree under every key. -/
private theorem agrees_of_field?
    {fields others : List (String × Json)}
    {value other : Json}
    (same : Agrees (.record fields) (.record others))
    (key : String)
    (found : field? fields key = some value)
    (otherFound : field? others key = some other) :
    Agrees value other := by
  have answers := agrees_record_iff.mp same key
  rw [found, otherFound] at answers
  cases answers with
  | some same => exact same

/-- Texts that may be absent agree as fields just when they are the same. -/
private theorem rel_map_text_iff
    {content other : Option String} :
    Option.Rel Agrees (content.map .text) (other.map .text) ↔
      content = other := by
  constructor
  · intro same
    cases content with
    | none =>
        cases other with
        | none => rfl
        | some _ => cases same
    | some written =>
        cases other with
        | none => cases same
        | some _ =>
            cases same with
            | some same => rw [agrees_text_iff.mp same]
  · rintro rfl
    cases content with
    | none => exact Option.Rel.none
    | some written => exact Option.Rel.some (Agrees.text written)

/-- Lists of texts agree just when they are the same. -/
private theorem forall₂_map_text_iff
    {texts others : List String} :
    List.Forall₂ Agrees (texts.map .text) (others.map .text) ↔
      texts = others := by
  simp only [List.forall₂_map_left_iff, List.forall₂_map_right_iff,
    agrees_text_iff, List.forall₂_eq_eq_eq]

end Json

namespace Anchor

/-- The fields of an anchor. -/
def fields (anchor : Anchor) : List (String × Json) :=
  [("name", .text anchor.name)] ++
    Json.optionalField "namespace" anchor.scope ++
    [("raw", .text anchor.raw)]

/-- Each part of an anchor has its own field, which an absent scope has not. -/
private theorem field?_fields (anchor : Anchor) :
    Json.field? anchor.fields "name" = (some anchor.name).map .text ∧
      Json.field? anchor.fields "namespace" = anchor.scope.map .text ∧
      Json.field? anchor.fields "raw" = (some anchor.raw).map .text := by
  cases found : anchor.scope <;>
    simp [fields, found, Json.optionalField, Json.field?]

/-- Anchors whose JSON values agree are the same. -/
theorem agrees_toJson_iff
    {left right : Anchor} :
    Json.Agrees left.toJson right.toJson ↔ left = right := by
  constructor
  · intro same
    have answers
        (key : String) :
        Option.Rel Json.Agrees
          (Json.field? left.fields key) (Json.field? right.fields key) :=
      Json.agrees_record_iff.mp same key
    obtain ⟨leftName, leftScope, leftRaw⟩ := left.field?_fields
    obtain ⟨rightName, rightScope, rightRaw⟩ := right.field?_fields
    have name := answers "name"
    have scope := answers "namespace"
    have raw := answers "raw"
    rw [leftName, rightName, Json.rel_map_text_iff, Option.some.injEq] at name
    rw [leftScope, rightScope, Json.rel_map_text_iff] at scope
    rw [leftRaw, rightRaw, Json.rel_map_text_iff, Option.some.injEq] at raw
    cases left
    cases right
    simp_all
  · rintro rfl
    apply Json.agrees_record_of_forall₂
    refine List.forall₂_same.mpr fun field member => ⟨rfl, ?_⟩
    have isText : ∃ characters, field.2 = .text characters := by
      cases found : left.scope <;>
        simp only [found, Json.optionalField, List.mem_append,
          List.mem_singleton, List.not_mem_nil, or_false] at member <;>
        rcases member with (rfl | rfl) | rfl <;>
        exact ⟨_, rfl⟩
    obtain ⟨characters, written⟩ := isText
    rw [written]
    exact Json.Agrees.text characters

/-- Anchors with the same JSON value are the same. -/
theorem eq_of_toJson_eq
    {left right : Anchor}
    (same : left.toJson = right.toJson) :
    left = right :=
  agrees_toJson_iff.mp (same ▸ agrees_toJson_iff.mpr rfl)

end Anchor

namespace Modifiers

/-- All numbers are finite. -/
def isFinite (modifiers : Modifiers) : Bool :=
  modifiers.entries.all fun entry => entry.2.isFinite

theorem isFinite_of_get?
    {modifiers : Modifiers}
    (finite : modifiers.isFinite = true)
    {key : String}
    {value : Value}
    (found : modifiers.get? key = some value) :
    value.isFinite = true :=
  List.all_eq_true.mp finite (key, value) (mem_entries_iff.mpr found)

/-- Modifiers with finite numbers agree just when their JSON values do. -/
theorem agrees_toJson_iff
    {left right : Modifiers}
    (leftFinite : left.isFinite = true)
    (rightFinite : right.isFinite = true) :
    Json.Agrees left.toJson right.toJson ↔ left.agrees right = true := by
  refine ⟨fun same => agrees_iff_get?.mpr fun key => ?_, agrees_toJson⟩
  have answers := Json.agrees_record_iff.mp same key
  rw [field?_toJson, field?_toJson] at answers
  cases leftFound : left.get? key with
  | none =>
      cases rightFound : right.get? key with
      | none => exact Option.Rel.none
      | some other =>
          rw [leftFound, rightFound] at answers
          cases answers
  | some value =>
      cases rightFound : right.get? key with
      | none =>
          rw [leftFound, rightFound] at answers
          cases answers
      | some other =>
          rw [leftFound, rightFound] at answers
          cases answers with
          | some same =>
              exact Option.Rel.some
                (Value.agrees_of_toJson
                  (isFinite_of_get? leftFinite leftFound)
                  (isFinite_of_get? rightFinite rightFound) same)

/-- Modifiers with finite numbers and the same JSON value are the same. -/
theorem eq_of_toJson_eq
    {left right : Modifiers}
    (leftFinite : left.isFinite = true)
    (rightFinite : right.isFinite = true)
    (same : left.toJson = right.toJson) :
    left = right := by
  have entries : left.entries = right.entries := by
    refine eq_of_map_eq ?_ (Json.record.inj same)
    intro entry isEntry other isOther sameField
    obtain ⟨sameKey, sameValue⟩ := Prod.mk.inj sameField
    have read := Value.ofJson?_toJson (List.all_eq_true.mp leftFinite entry isEntry)
    rw [sameValue,
      Value.ofJson?_toJson (List.all_eq_true.mp rightFinite other isOther)]
      at read
    exact Prod.ext sameKey (Option.some.inj read).symm
  cases left
  cases right
  simpa only [mk.injEq] using entries

end Modifiers

namespace Statement

/-- Statements with finite numbers agree just when their JSON values do. -/
theorem agrees_toJson_iff
    {left right : Statement}
    (leftFinite : left.modifiers.isFinite = true)
    (rightFinite : right.modifiers.isFinite = true) :
    Json.Agrees left.toJson right.toJson ↔ left.agrees right = true := by
  simp only [agrees, Bool.and_eq_true, decide_eq_true_eq,
    ← Modifiers.agrees_toJson_iff leftFinite rightFinite,
    ← Anchor.agrees_toJson_iff]
  constructor
  · intro same
    have source := Json.agrees_of_field? same "source" rfl rfl
    have target := Json.agrees_of_field? same "target" rfl rfl
    have modifiers := Json.agrees_of_field? same "modifiers" rfl rfl
    exact ⟨⟨source, target⟩, modifiers⟩
  · rintro ⟨⟨source, target⟩, modifiers⟩
    exact
      Json.agrees_record_of_forall₂
        (.cons ⟨rfl, source⟩
          (.cons ⟨rfl, target⟩ (.cons ⟨rfl, modifiers⟩ .nil)))

/-- Statements with finite numbers and the same JSON value are the same. -/
theorem eq_of_toJson_eq
    {left right : Statement}
    (leftFinite : left.modifiers.isFinite = true)
    (rightFinite : right.modifiers.isFinite = true)
    (same : left.toJson = right.toJson) :
    left = right := by
  simp only [toJson, Json.record.injEq, List.cons.injEq, Prod.mk.injEq,
    true_and, and_true] at same
  obtain ⟨source, target, modifiers⟩ := same
  have sameModifiers :=
    Modifiers.eq_of_toJson_eq leftFinite rightFinite modifiers
  cases left
  cases right
  rw [mk.injEq]
  exact
    ⟨Anchor.eq_of_toJson_eq source, Anchor.eq_of_toJson_eq target,
      sameModifiers⟩

/-- Statements agree as lists when they agree one by one. -/
theorem allAgree_iff_forall₂
    {lefts rights : List Statement} :
    allAgree lefts rights = true ↔
      List.Forall₂ (fun left right => left.agrees right = true)
        lefts rights := by
  induction lefts generalizing rights with
  | nil =>
      cases rights with
      | nil => exact iff_of_true rfl .nil
      | cons _ _ => exact iff_of_false (by simp [allAgree]) nofun
  | cons left rest inductionHypothesis =>
      cases rights with
      | nil => exact iff_of_false (by simp [allAgree]) nofun
      | cons right others =>
          rw [allAgree, Bool.and_eq_true, inductionHypothesis,
            List.forall₂_cons]

/-- Lists of statements with finite numbers agree just when their JSON values do. -/
private theorem allAgree_toJson_iff
    {lefts rights : List Statement}
    (leftFinite : ∀ left ∈ lefts, left.modifiers.isFinite = true)
    (rightFinite : ∀ right ∈ rights, right.modifiers.isFinite = true) :
    List.Forall₂ Json.Agrees (lefts.map toJson) (rights.map toJson) ↔
      allAgree lefts rights = true := by
  rw [allAgree_iff_forall₂, List.forall₂_map_left_iff,
    List.forall₂_map_right_iff, List.forall₂_iff_zip, List.forall₂_iff_zip]
  refine and_congr_right fun _ => forall_congr' fun left =>
    forall_congr' fun right => imp_congr_right fun member => ?_
  obtain ⟨inLefts, inRights⟩ := List.of_mem_zip member
  exact agrees_toJson_iff (leftFinite left inLefts) (rightFinite right inRights)


end Statement

namespace Document

/-- All numbers in the modifiers of the statements are finite. -/
def isFinite (document : Document) : Bool :=
  document.statements.all fun statement => statement.modifiers.isFinite

/--
Documents with finite numbers have the same JSON value only when they are the
same, and JSON values that agree just when they agree: with the same comments, and
statement by statement the same anchors and the same keys with values of the same
kind and content.
-/
theorem toJson_distinguishes
    {left right : Document}
    (leftFinite : left.isFinite = true)
    (rightFinite : right.isFinite = true) :
    (left.toJson = right.toJson ↔ left = right) ∧
      (Json.Agrees left.toJson right.toJson ↔ left.agrees right = true) := by
  have leftStatements := List.all_eq_true.mp leftFinite
  have rightStatements := List.all_eq_true.mp rightFinite
  refine ⟨⟨?same, fun same => same ▸ rfl⟩, ?agree⟩
  case same =>
    intro same
    simp only [toJson, Json.record.injEq, List.cons.injEq, Prod.mk.injEq,
      true_and, and_true, Json.list.injEq] at same
    obtain ⟨statements, comments⟩ := same
    have sameStatements : left.statements = right.statements :=
      eq_of_map_eq
        (fun statement isLeft other isRight =>
          Statement.eq_of_toJson_eq
            (leftStatements statement isLeft) (rightStatements other isRight))
        statements
    have sameComments : left.comments = right.comments :=
      List.map_injective_iff.mpr (fun _ _ => Json.text.inj) comments
    cases left
    cases right
    exact mk.injEq .. ▸ ⟨sameStatements, sameComments⟩
  case agree =>
    rw [agrees, Bool.and_eq_true, decide_eq_true_eq,
      ← Statement.allAgree_toJson_iff leftStatements rightStatements]
    constructor
    · intro same
      have statements := Json.agrees_of_field? same "statements" rfl rfl
      have comments := Json.agrees_of_field? same "comments" rfl rfl
      rw [Json.agrees_list_iff] at statements comments
      exact ⟨statements, Json.forall₂_map_text_iff.mp comments⟩
    · rintro ⟨statements, comments⟩
      have sameComments := Json.forall₂_map_text_iff.mpr comments
      exact
        Json.agrees_record_of_forall₂
          (.cons ⟨rfl, .list statements⟩
            (.cons ⟨rfl, .list sameComments⟩ .nil))

/--
A text is told from a number that is written alike and an absent scope from an
empty one, while the zeros differ only in the value that is written.
-/
theorem toJson_distinguishes_kinds :
    let document (scope : Option String) (value : Value) : Document :=
      ⟨[⟨⟨scope, "a", "a"⟩, ⟨none, "b", "b"⟩,
          Modifiers.ofList [("k", value)]⟩], ["c"]⟩
    let zero (negative : Bool) : Value := .number ⟨negative, 0, 0⟩
    ¬Json.Agrees (document none (.text "0")).toJson
        (document none (zero false)).toJson ∧
      ¬Json.Agrees (document none (zero false)).toJson
        (document (some "") (zero false)).toJson ∧
      Json.Agrees (document none (zero true)).toJson
        (document none (zero false)).toJson ∧
      (document none (zero true)).toJson ≠
        (document none (zero false)).toJson := by
  intro document zero
  have text : (document none (.text "0")).isFinite = true := by
    decide +kernel
  have empty : (document (some "") (zero false)).isFinite = true := by
    decide +kernel
  have negative : (document none (zero true)).isFinite = true := by
    decide +kernel
  have unsigned : (document none (zero false)).isFinite = true := by
    decide +kernel
  have otherKind := (toJson_distinguishes text unsigned).2
  have otherScope := (toJson_distinguishes unsigned empty).2
  have otherSign := toJson_distinguishes negative unsigned
  rw [otherKind, otherScope, otherSign.2, Ne, otherSign.1]
  decide +kernel

end Document

end AnchorScript
