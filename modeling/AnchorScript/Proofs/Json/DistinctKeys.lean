import AnchorScript.Json.Reader
import Mathlib.Tactic.SplitIfs

namespace AnchorScript

/-!
# Keys of a record that is read

Of fields with the same key the reader keeps the last one. So while a text is put
together, every record on the way has different keys, and so has the record that
the text writes.
-/

/-- The keys of fields are pairwise different. -/
def Json.HaveDistinctKeys (fields : List (String × Json)) : Prop :=
  (fields.map Prod.fst).Nodup

/-- The value is no record, or one whose keys are pairwise different. -/
def Json.HasDistinctKeys (value : Json) : Prop :=
  ∀ fields, value = .record fields → HaveDistinctKeys fields

/-- A record that is still open has different keys so far. -/
def JsonEnclosure.HasDistinctKeys (enclosure : JsonEnclosure) : Prop :=
  ∀ fields key, enclosure = .record fields key → Json.HaveDistinctKeys fields

/-- The fields or the value that a stage holds have different keys. -/
def JsonStage.HasDistinctKeys : JsonStage → Prop
  | .key fields | .afterKey fields _ | .afterField fields =>
      Json.HaveDistinctKeys fields
  | .complete whole => whole.HasDistinctKeys
  | _ => True

/-- A token that is a value is not a record. -/
def JsonToken.IsPlain (token : JsonToken) : Prop :=
  ∀ fields, token ≠ .scalar (.record fields)

namespace JsonAssembly

/-- Every record that an assembly holds has different keys. -/
structure HasDistinctKeys (assembly : JsonAssembly) : Prop where
  enclosures :
    ∀ enclosure ∈ assembly.enclosures, enclosure.HasDistinctKeys
  stage : assembly.stage.HasDistinctKeys

/-- A field at the end takes the place of the field with its key. -/
theorem haveDistinctKeys_withField
    {fields : List (String × Json)}
    (distinct : Json.HaveDistinctKeys fields)
    (key : String)
    (value : Json) :
    Json.HaveDistinctKeys (withField fields key value) := by
  have keptDistinct :
      Json.HaveDistinctKeys (fields.filter fun field => field.1 ≠ key) :=
    distinct.sublist (List.filter_sublist.map Prod.fst)
  have keyIsNew :
      ∀ kept ∈ (fields.filter fun field => field.1 ≠ key).map Prod.fst,
        kept ≠ key := by
    simp
  rw [Json.HaveDistinctKeys, withField, List.map_append, List.nodup_append]
  refine ⟨keptDistinct, by simp, fun kept isKept other isLast => ?_⟩
  rw [List.map_singleton, List.mem_singleton] at isLast
  exact isLast ▸ keyIsNew kept isKept

/-- A complete value leaves the records around it with different keys. -/
theorem hasDistinctKeys_complete
    {enclosures : List JsonEnclosure}
    (around : ∀ enclosure ∈ enclosures, enclosure.HasDistinctKeys)
    {value : Json}
    (inside : value.HasDistinctKeys) :
    (complete enclosures value).HasDistinctKeys := by
  match enclosures with
  | [] =>
      exact ⟨around, inside⟩
  | .list items :: outer =>
      exact ⟨fun _ isOuter => around _ (List.mem_cons_of_mem _ isOuter), trivial⟩
  | .record fields key :: outer =>
      have distinct : Json.HaveDistinctKeys fields :=
        around _ List.mem_cons_self fields key rfl
      exact
        ⟨fun _ isOuter => around _ (List.mem_cons_of_mem _ isOuter),
          haveDistinctKeys_withField distinct key value⟩

/-- The first token of a value opens no record with fields. -/
theorem hasDistinctKeys_of_start?
    {enclosures : List JsonEnclosure}
    (around : ∀ enclosure ∈ enclosures, enclosure.HasDistinctKeys)
    {token : JsonToken}
    (isPlain : token.IsPlain)
    {next : JsonAssembly}
    (started : start? enclosures token = some next) :
    next.HasDistinctKeys := by
  cases token with
  | scalar value =>
      cases started
      refine hasDistinctKeys_complete around fun fields isRecord => ?_
      exact absurd (congrArg JsonToken.scalar isRecord) (isPlain fields)
  | openList | openRecord =>
      cases started
      exact ⟨around, trivial⟩
  | _ =>
      cases started

/-- A step keeps the keys of every record different. -/
theorem HasDistinctKeys.step?
    {assembly next : JsonAssembly}
    (distinct : assembly.HasDistinctKeys)
    {token : JsonToken}
    (isPlain : token.IsPlain)
    (stepped : assembly.step? token = some next) :
    next.HasDistinctKeys := by
  obtain ⟨enclosures, stage⟩ := assembly
  obtain ⟨around, held⟩ := distinct
  have aroundList
      (items : List Json) :
      ∀ enclosure ∈ JsonEnclosure.list items :: enclosures,
        enclosure.HasDistinctKeys :=
    List.forall_mem_cons.mpr ⟨nofun, around⟩
  have emptyRecord : Json.HasDistinctKeys (.record []) := by
    rintro fields ⟨⟩
    exact List.nodup_nil
  simp only [JsonAssembly.step?] at stepped held around
  split at stepped
  case h_1 =>
    exact hasDistinctKeys_of_start? around isPlain stepped
  case h_2 =>
    cases stepped
    exact hasDistinctKeys_complete around nofun
  case h_3 =>
    exact hasDistinctKeys_of_start? (aroundList []) isPlain stepped
  case h_4 _ items =>
    cases stepped
    exact ⟨aroundList items, trivial⟩
  case h_5 =>
    cases stepped
    exact hasDistinctKeys_complete around nofun
  case h_6 =>
    cases stepped
    exact hasDistinctKeys_complete around emptyRecord
  case h_7 =>
    cases stepped
    exact ⟨around, List.nodup_nil⟩
  case h_8 =>
    cases stepped
    exact ⟨around, held⟩
  case h_9 =>
    cases stepped
    refine ⟨List.forall_mem_cons.mpr ⟨?_, around⟩, trivial⟩
    rintro _ _ ⟨⟩
    exact held
  case h_10 =>
    cases stepped
    exact ⟨around, held⟩
  case h_11 =>
    cases stepped
    refine hasDistinctKeys_complete around ?_
    rintro _ ⟨⟩
    exact held
  case h_12 =>
    cases stepped

/-- A run keeps the keys of every record different. -/
theorem HasDistinctKeys.foldlM_step?
    {assembly last : JsonAssembly}
    (distinct : assembly.HasDistinctKeys)
    {tokens : List JsonToken}
    (arePlain : ∀ token ∈ tokens, token.IsPlain)
    (run : tokens.foldlM JsonAssembly.step? assembly = some last) :
    last.HasDistinctKeys := by
  induction tokens generalizing assembly with
  | nil =>
      cases run
      exact distinct
  | cons token rest inductionHypothesis =>
      obtain ⟨isPlain, restPlain⟩ := List.forall_mem_cons.mp arePlain
      rw [List.foldlM_cons] at run
      obtain ⟨next, stepped, rest⟩ := Option.bind_eq_some_iff.mp run
      exact inductionHypothesis (distinct.step? isPlain stepped) restPlain rest

end JsonAssembly

namespace JsonToken

/-- A word is no record. -/
private theorem isPlain_of_wordValue?
    {word : List Char}
    {value : Json}
    (found : wordValue? word = some value) :
    (scalar value).IsPlain := by
  rintro fields ⟨⟩
  unfold wordValue? at found
  split_ifs at found
  · cases found
  · cases found
  · cases found
  · obtain ⟨numeral, _, isValue⟩ := Option.bind_eq_some_iff.mp found
    unfold JsonNumeral.value? at isValue
    split at isValue
    · cases isValue
    · obtain ⟨_, _, ⟨⟩⟩ := Option.map_eq_some_iff.mp isValue

/-- No token of a text is a record. -/
theorem isPlain_of_ofText?
    {text : List Char}
    {tokens : List JsonToken}
    (found : ofText? text = some tokens) :
    ∀ token ∈ tokens, token.IsPlain := by
  fun_induction ofText? text generalizing tokens with
  | case1 =>
      cases found
      simp
  | case2 _ _ _ inductionHypothesis =>
      exact inductionHypothesis found
  | case3 =>
      cases found
  | case4 _ parts _ _ _ _ inductionHypothesis =>
      obtain ⟨written, _, found⟩ := Option.bind_eq_some_iff.mp found
      obtain ⟨others, foundOthers, ⟨⟩⟩ := Option.bind_eq_some_iff.mp found
      exact
        List.forall_mem_cons.mpr ⟨nofun, inductionHypothesis foundOthers⟩
  | case5 first rest _ _ mark isMark inductionHypothesis =>
      obtain ⟨others, foundOthers, rfl⟩ := Option.map_eq_some_iff.mp found
      refine
        List.forall_mem_cons.mpr ⟨?_, inductionHypothesis foundOthers⟩
      rintro fields rfl
      simp only [mark?] at isMark
      split at isMark <;> cases isMark
  | case6 first rest _ _ _ inductionHypothesis =>
      obtain ⟨value, isWord, found⟩ := Option.bind_eq_some_iff.mp found
      obtain ⟨others, foundOthers, ⟨⟩⟩ := Option.bind_eq_some_iff.mp found
      exact
        List.forall_mem_cons.mpr
          ⟨isPlain_of_wordValue? isWord, inductionHypothesis foundOthers⟩

end JsonToken

/-- A record that a text writes has different keys. -/
theorem Json.haveDistinctKeys_of_ofText?
    {text : List Char}
    {fields : List (String × Json)}
    (found : ofText? text = some (.record fields)) :
    HaveDistinctKeys fields := by
  obtain ⟨tokens, areTokens, found⟩ := Option.bind_eq_some_iff.mp found
  have atStart : (JsonAssembly.mk [] .value).HasDistinctKeys :=
    ⟨nofun, trivial⟩
  unfold ofTokens? at found
  split_ifs at found
  split at found
  case h_1 last run =>
    cases found
    have atEnd :=
      atStart.foldlM_step? (JsonToken.isPlain_of_ofText? areTokens) run
    exact atEnd.stage fields rfl
  case h_2 =>
    cases found

end AnchorScript
