import AnchorScript.Proofs.Reader.Concatenation
import AnchorScript.Proofs.Reader.WellFormed
import Mathlib.Logic.Relation

namespace AnchorScript

/-!
# Layout does not count

A source text may be laid out anew: a byte-order mark may be put in front of it,
lines may be padded with blanks, and a line may be broken at a space, so that its
second part continues the first. None of this changes what is read, however often
it is done, because the logical lines stay the same character for character.
-/

/-- A text with or without a byte-order mark, which belongs to none of its lines. -/
structure SourceText where
  isMarked : Bool
  body : List Char

/-- The whole text. -/
def SourceText.text (source : SourceText) : String :=
  String.ofList
    (if source.isMarked then '\uFEFF' :: source.body else source.body)

/-- The line stands between two line feeds, or between one and an end of the text. -/
structure IsLine (before line after : List Char) : Prop where
  starts : before = [] ∨ before.getLast? = some '\n'
  ends : after = [] ∨ after.head? = some '\n'
  unbroken : '\n' ∉ line

/-- One change of the layout. -/
inductive LayoutStep : SourceText → SourceText → Prop where
  | marked
      (body : List Char) :
      LayoutStep ⟨false, body⟩ ⟨true, body⟩
  | padded
      (isMarked : Bool)
      {before line ending after leading trailing : List Char}
      (isLine : IsLine before (line ++ ending) after)
      -- a line ends before its carriage return, or with it
      (isEnding : ending = [] ∨ ending = ['\r'])
      (leadingBlank :
        ∀ character ∈ leading,
          Text.isBlank character = true ∧ character ≠ '\n')
      (trailingBlank :
        ∀ character ∈ trailing,
          Text.isBlank character = true ∧ character ≠ '\n') :
      LayoutStep
        ⟨isMarked, before ++ (line ++ ending) ++ after⟩
        ⟨isMarked, before ++ (leading ++ line ++ trailing ++ ending) ++ after⟩
  | broken
      (isMarked : Bool)
      {before left right after : List Char}
      {last first : Char}
      (isLine : IsLine before (left ++ ' ' :: right) after)
      (isLast : left.getLast? = some last)
      (lastNotBlank : Text.isBlank last = false)
      (isFirst : right.head? = some first)
      (firstNotBlank : Text.isBlank first = false)
      (notComment : (Text.trimStart left).head? ≠ some '#')
      (continues : first ≠ '[' ∧ first ≠ '#') :
      LayoutStep
        ⟨isMarked, before ++ (left ++ ' ' :: right) ++ after⟩
        ⟨isMarked, before ++ (left ++ '\n' :: right) ++ after⟩

namespace IsLine

/-- What is put in the place of a line is divided by itself. -/
theorem exists_pieces
    {before line after : List Char}
    (isLine : IsLine before line after) :
    ∃ earlier later,
      ∀ middle,
        Text.pieces '\n' (before ++ middle ++ after) =
          earlier ++ Text.pieces '\n' middle ++ later := by
  have front :
      ∃ earlier,
        ∀ rest,
          Text.pieces '\n' (before ++ rest) =
            earlier ++ Text.pieces '\n' rest := by
    rcases isLine.starts with isEmpty | isEnded
    · exact ⟨[], fun rest => by rw [isEmpty]; rfl⟩
    · obtain ⟨lines, split⟩ := List.getLast?_eq_some_iff.mp isEnded
      refine ⟨Text.pieces '\n' lines, fun rest => ?_⟩
      rw [split, List.append_assoc, List.singleton_append,
        Text.pieces_append_cons]
  have back :
      ∃ later,
        ∀ middle,
          Text.pieces '\n' (middle ++ after) =
            Text.pieces '\n' middle ++ later := by
    rcases isLine.ends with isEmpty | isStarted
    · exact ⟨[], fun middle => by rw [isEmpty]; simp⟩
    · obtain ⟨lines, split⟩ := List.head?_eq_some_iff.mp isStarted
      refine ⟨Text.pieces '\n' lines, fun middle => ?_⟩
      rw [split, Text.pieces_append_cons]
  obtain ⟨earlier, divideFront⟩ := front
  obtain ⟨later, divideBack⟩ := back
  refine ⟨earlier, later, fun middle => ?_⟩
  rw [List.append_assoc, divideFront, divideBack, List.append_assoc]

end IsLine

namespace PhysicalLine

theorem ofText_append_blanks
    (line : List Char)
    {blanks : List Char}
    (areBlank : ∀ character ∈ blanks, Text.isBlank character = true) :
    ofText (line ++ blanks) = ofText line := by
  simp only [ofText, Text.trim_append_blanks line areBlank]

theorem ofText_blanks_append
    {blanks : List Char}
    (areBlank : ∀ character ∈ blanks, Text.isBlank character = true)
    (line : List Char) :
    ofText (blanks ++ line) = ofText line := by
  simp only [ofText, Text.trim_blanks_append areBlank]

/--
A line that is broken at a space has two trimmed parts with a space between
them. The first is of the kind of the line, and the second continues it.
-/
theorem ofText_broken
    {left right : List Char}
    {last first : Char}
    (isLast : left.getLast? = some last)
    (lastNotBlank : Text.isBlank last = false)
    (isFirst : right.head? = some first)
    (firstNotBlank : Text.isBlank first = false)
    (notComment : (Text.trimStart left).head? ≠ some '#')
    (continues : first ≠ '[' ∧ first ≠ '#') :
    ∃ front back,
      ofText right = .continuation back ∧
        ((ofText left = .opening front ∧
            ofText (left ++ ' ' :: right) =
              .opening (front ++ ' ' :: back)) ∨
          (ofText left = .continuation front ∧
            ofText (left ++ ' ' :: right) =
              .continuation (front ++ ' ' :: back))) := by
  obtain ⟨later, rfl⟩ := List.head?_eq_some_iff.mp isFirst
  have leftEnd := Text.getLast?_trimStart isLast lastNotBlank
  have leftTrimmed : Text.trim left = Text.trimStart left :=
    Text.trimEnd_eq_self leftEnd lastNotBlank
  have rightTrimmed :
      Text.trim (first :: later) = first :: Text.trimEnd later :=
    Text.trim_cons firstNotBlank later
  have wholeTrimmed :
      Text.trim (left ++ ' ' :: first :: later) =
        Text.trimStart left ++ ' ' :: first :: Text.trimEnd later := by
    rw [Text.trim_append_space_cons isLast lastNotBlank firstNotBlank,
      leftTrimmed, rightTrimmed]
  refine
    ⟨Text.trimStart left, first :: Text.trimEnd later,
      ofText_of_continuation rightTrimmed continues.2 continues.1, ?_⟩
  cases front : Text.trimStart left with
  | nil =>
      simp [front] at leftEnd
  | cons head tail =>
      rw [front] at leftTrimmed wholeTrimmed notComment
      by_cases opens : head = '['
      · subst opens
        exact Or.inl
          ⟨ofText_of_opening leftTrimmed, ofText_of_opening wholeTrimmed⟩
      · have notSign : head ≠ '#' := by simpa using notComment
        exact Or.inr
          ⟨ofText_of_continuation leftTrimmed notSign opens,
            ofText_of_continuation wholeTrimmed notSign opens⟩

end PhysicalLine

namespace LogicalLine.Joining

/--
The logical lines are the same, and the pending lines, though they may be
divided in another way, make the same text.
-/
structure Alike (first second : Joining) : Prop where
  lines : first.lines = second.lines
  isEmpty : first.pending = [] ↔ second.pending = []
  text :
    [' '].intercalate first.pending = [' '].intercalate second.pending

/-- Another line in front of the pending ones. -/
theorem Alike.cons
    {first second : Joining}
    (alike : Alike first second)
    (line : List Char) :
    [' '].intercalate (line :: first.pending) =
      [' '].intercalate (line :: second.pending) := by
  by_cases isEmpty : first.pending = []
  · rw [isEmpty, alike.isEmpty.mp isEmpty]
  · have secondNonempty : second.pending ≠ [] :=
      fun secondEmpty => isEmpty (alike.isEmpty.mpr secondEmpty)
    rw [List.intercalate_cons_of_ne_nil isEmpty, alike.text,
      List.intercalate_cons_of_ne_nil secondNonempty]

theorem Alike.close
    {first second : Joining}
    (alike : Alike first second) :
    first.close = second.close := by
  by_cases isEmpty : first.pending = []
  · rw [Joining.close, if_pos isEmpty, Joining.close,
      if_pos (alike.isEmpty.mp isEmpty), alike.lines]
  · have secondNonempty : second.pending ≠ [] :=
      fun secondEmpty => isEmpty (alike.isEmpty.mpr secondEmpty)
    rw [Joining.close, if_neg isEmpty, Joining.close,
      if_neg secondNonempty, alike.lines, ofRun, ofRun, alike.text]

theorem Alike.prepend
    {first second : Joining}
    (alike : Alike first second)
    (line : PhysicalLine) :
    Alike (Joining.prepend line first) (Joining.prepend line second) := by
  cases line with
  | blank =>
      exact ⟨congrArg (separator :: ·) alike.close, Iff.rfl, rfl⟩
  | comment body =>
      exact ⟨congrArg (separator :: ·) alike.close, Iff.rfl, rfl⟩
  | opening text =>
      refine ⟨?_, Iff.rfl, rfl⟩
      simp only [Joining.prepend, ofRun, alike.cons text, alike.lines]
  | continuation text =>
      exact
        ⟨alike.lines, by simp [Joining.prepend], alike.cons text⟩

/-- Lines in front of alike joinings leave them alike. -/
theorem Alike.append
    {first second : List PhysicalLine}
    (alike : Alike (ofLines first) (ofLines second))
    (earlier : List PhysicalLine) :
    Alike (ofLines (earlier ++ first)) (ofLines (earlier ++ second)) := by
  induction earlier with
  | nil =>
      exact alike
  | cons line rest inductionHypothesis =>
      exact inductionHypothesis.prepend line

private theorem intercalate_space_cons_cons
    (front back : List Char)
    (rest : List (List Char)) :
    [' '].intercalate (front :: back :: rest) =
      [' '].intercalate ((front ++ ' ' :: back) :: rest) := by
  cases rest <;> simp [List.intercalate_cons_cons]

theorem alike_of_broken_opening
    (front back : List Char)
    (later : List PhysicalLine) :
    Alike
      (ofLines (.opening front :: .continuation back :: later))
      (ofLines (.opening (front ++ ' ' :: back) :: later)) := by
  refine ⟨?_, Iff.rfl, rfl⟩
  simp only [ofLines_cons, prepend, ofRun, intercalate_space_cons_cons]

theorem alike_of_broken_continuation
    (front back : List Char)
    (later : List PhysicalLine) :
    Alike
      (ofLines (.continuation front :: .continuation back :: later))
      (ofLines (.continuation (front ++ ' ' :: back) :: later)) :=
  ⟨rfl, by simp [ofLines_cons, prepend],
    intercalate_space_cons_cons _ _ _⟩

end LogicalLine.Joining

namespace Reading

/-- A reading does not show how a line was broken. -/
theorem ofPhysicalLines_congr
    {first second : List PhysicalLine}
    (alike :
      (LogicalLine.Joining.ofLines first).Alike
        (LogicalLine.Joining.ofLines second))
    (comments :
      first.filterMap PhysicalLine.comment? =
        second.filterMap PhysicalLine.comment?) :
    ofPhysicalLines first = ofPhysicalLines second := by
  simp only [ofPhysicalLines, alike.close, comments]

theorem ofPhysicalLines_broken
    {left right : List Char}
    {last first : Char}
    (isLast : left.getLast? = some last)
    (lastNotBlank : Text.isBlank last = false)
    (isFirst : right.head? = some first)
    (firstNotBlank : Text.isBlank first = false)
    (notComment : (Text.trimStart left).head? ≠ some '#')
    (continues : first ≠ '[' ∧ first ≠ '#')
    (earlier later : List PhysicalLine) :
    ofPhysicalLines
        (earlier ++ [.ofText left, .ofText right] ++ later) =
      ofPhysicalLines
        (earlier ++ [.ofText (left ++ ' ' :: right)] ++ later) := by
  obtain ⟨front, back, rightKind, leftKind⟩ :=
    PhysicalLine.ofText_broken isLast lastNotBlank isFirst firstNotBlank
      notComment continues
  rw [List.append_assoc, List.append_assoc]
  rcases leftKind with ⟨opens, wholeOpens⟩ | ⟨goesOn, wholeGoesOn⟩
  · rw [opens, rightKind, wholeOpens]
    refine ofPhysicalLines_congr
      ((LogicalLine.Joining.alike_of_broken_opening _ _ _).append _) ?_
    simp only [List.filterMap_append]
    rfl
  · rw [goesOn, rightKind, wholeGoesOn]
    refine ofPhysicalLines_congr
      ((LogicalLine.Joining.alike_of_broken_continuation _ _ _).append _) ?_
    simp only [List.filterMap_append]
    rfl

end Reading

namespace SourceText

/-- The lines of a text are those of its body, marked or not. -/
theorem linesOf_text
    {source : SourceText}
    (unmarked : source.body.head? ≠ some '\uFEFF') :
    Reading.linesOf source.text.toList =
      (Text.pieces '\n' source.body).map PhysicalLine.ofText := by
  obtain ⟨isMarked, body⟩ := source
  rw [text, String.toList_ofList, Reading.linesOf]
  cases isMarked with
  | false =>
      rw [if_neg Bool.false_ne_true, Text.withoutMark_of_head?_ne unmarked]
  | true =>
      rfl

end SourceText

namespace LayoutStep

/-- Blanks that are put into a text do not put a mark at its front. -/
private theorem head?_insert_ne_mark
    (before after : List Char)
    {blanks : List Char}
    (areBlank : ∀ character ∈ blanks, Text.isBlank character = true)
    (unmarked : (before ++ after).head? ≠ some '\uFEFF') :
    (before ++ blanks ++ after).head? ≠ some '\uFEFF' := by
  cases before with
  | cons head rest =>
      exact unmarked
  | nil =>
      cases blanks with
      | nil =>
          exact unmarked
      | cons head rest =>
          have isBlank := areBlank head List.mem_cons_self
          intro isMark
          cases isMark
          exact absurd isBlank (by decide)

/-- No change of the layout puts a mark at the front of the body. -/
theorem unmarked
    {source relaid : SourceText}
    (step : LayoutStep source relaid)
    (unmarked : source.body.head? ≠ some '\uFEFF') :
    relaid.body.head? ≠ some '\uFEFF' := by
  cases step with
  | marked body =>
      exact unmarked
  | @padded isMarked before line ending after leading trailing isLine isEnding
      leadingBlank trailingBlank =>
      have indented :
          (before ++ leading ++ (line ++ ending ++ after)).head? ≠
            some '\uFEFF' :=
        head?_insert_ne_mark before (line ++ ending ++ after)
          (fun character member => (leadingBlank character member).1)
          (by simpa only [List.append_assoc] using unmarked)
      have ended :
          (before ++ leading ++ line ++ trailing ++ (ending ++ after)).head? ≠
            some '\uFEFF' :=
        head?_insert_ne_mark (before ++ leading ++ line) (ending ++ after)
          (fun character member => (trailingBlank character member).1)
          (by simpa only [List.append_assoc] using indented)
      simpa only [List.append_assoc] using ended
  | @broken isMarked before left right after last first isLine isLast =>
      cases before with
      | cons head rest =>
          simpa using unmarked
      | nil =>
          cases left with
          | cons head rest =>
              simpa using unmarked
          | nil =>
              cases isLast

/-- One change of the layout does not change what is read. -/
theorem ofText_text
    {source relaid : SourceText}
    (step : LayoutStep source relaid)
    (unmarked : source.body.head? ≠ some '\uFEFF') :
    Reading.ofText relaid.text = Reading.ofText source.text := by
  rw [Reading.ofText_eq_ofPhysicalLines, Reading.ofText_eq_ofPhysicalLines,
    SourceText.linesOf_text unmarked,
    SourceText.linesOf_text (step.unmarked unmarked)]
  cases step with
  | marked body =>
      rfl
  | @padded isMarked before line ending after leading trailing isLine isEnding
      leadingBlank trailingBlank =>
      obtain ⟨earlier, later, divided⟩ := isLine.exists_pieces
      have endingBlank :
          ∀ character ∈ ending, Text.isBlank character = true := by
        rcases isEnding with rfl | rfl
        · exact List.forall_mem_nil _
        · exact List.forall_mem_singleton.mpr (by decide)
      have parts := isLine.unbroken
      rw [List.mem_append, not_or] at parts
      have unbroken : '\n' ∉ leading ++ line ++ trailing ++ ending := by
        simp only [List.mem_append, not_or]
        exact
          ⟨⟨⟨fun member => (leadingBlank _ member).2 rfl, parts.1⟩,
            fun member => (trailingBlank _ member).2 rfl⟩, parts.2⟩
      have sameLine :
          PhysicalLine.ofText (leading ++ line ++ trailing ++ ending) =
            PhysicalLine.ofText (line ++ ending) := by
        rw [PhysicalLine.ofText_append_blanks _ endingBlank,
          PhysicalLine.ofText_append_blanks _ endingBlank,
          PhysicalLine.ofText_append_blanks _
            (fun character member => (trailingBlank character member).1),
          PhysicalLine.ofText_blanks_append
            (fun character member => (leadingBlank character member).1)]
      rw [divided, divided, Text.pieces_of_not_mem unbroken,
        Text.pieces_of_not_mem isLine.unbroken]
      simp only [List.map_append, List.map_cons, List.map_nil, sameLine]
  | @broken isMarked before left right after last first isLine isLast
      lastNotBlank isFirst firstNotBlank notComment continues =>
      obtain ⟨earlier, later, divided⟩ := isLine.exists_pieces
      have parts := isLine.unbroken
      simp only [List.mem_append, List.mem_cons, not_or] at parts
      rw [divided, divided, Text.pieces_of_not_mem isLine.unbroken,
        Text.pieces_append_cons, Text.pieces_of_not_mem parts.1,
        Text.pieces_of_not_mem parts.2.2]
      simpa only [List.map_append, List.map_cons, List.map_nil,
        List.singleton_append] using
        Reading.ofPhysicalLines_broken isLast lastNotBlank isFirst
          firstNotBlank notComment continues
          (earlier.map PhysicalLine.ofText) (later.map PhysicalLine.ofText)

/-- No number of changes of the layout changes what is read. -/
theorem ofText_text_of_steps
    {source relaid : SourceText}
    (steps : Relation.ReflTransGen LayoutStep source relaid)
    (unmarked : source.body.head? ≠ some '\uFEFF') :
    relaid.body.head? ≠ some '\uFEFF' ∧
      Reading.ofText relaid.text = Reading.ofText source.text := by
  induction steps with
  | refl =>
      exact ⟨unmarked, rfl⟩
  | tail _ step inductionHypothesis =>
      obtain ⟨stillUnmarked, same⟩ := inductionHypothesis
      exact
        ⟨step.unmarked stillUnmarked,
          (step.ofText_text stillUnmarked).trans same⟩

end LayoutStep

namespace Document

/-- A text that is laid out anew reads as the same document, which agrees with itself. -/
theorem ofText_relaid
    {text : String}
    {relaid : SourceText}
    (unmarked : text.toList.head? ≠ some '\uFEFF')
    (steps :
      Relation.ReflTransGen LayoutStep ⟨false, text.toList⟩ relaid) :
    ofText relaid.text = ofText text ∧
      (ofText relaid.text).agrees (ofText text) = true := by
  have source : SourceText.text ⟨false, text.toList⟩ = text :=
    String.ofList_toList
  have same : ofText relaid.text = ofText text := by
    have reading := (LayoutStep.ofText_text_of_steps steps unmarked).2
    rw [source] at reading
    exact congrArg Reading.document reading
  rw [same]
  exact ⟨rfl, (isWellFormed_ofText text).agrees_self⟩

/--
A sentence is broken before its modifiers, its second line is indented and ends
with a carriage return, and a mark is put in front of it all.
-/
theorem ofText_relaid_broken :
    ofText "\uFEFF[a] -> [b]\n\t::mod(k=1)\r\n# c" =
        ofText "[a] -> [b] ::mod(k=1)\n# c" ∧
      (ofText "\uFEFF[a] -> [b]\n\t::mod(k=1)\r\n# c").agrees
        (ofText "[a] -> [b] ::mod(k=1)\n# c") = true := by
  have broken :
      LayoutStep ⟨false, "[a] -> [b] ::mod(k=1)\n# c".toList⟩
        ⟨false, "[a] -> [b]\n::mod(k=1)\n# c".toList⟩ :=
    @LayoutStep.broken false [] "[a] -> [b]".toList "::mod(k=1)".toList
      "\n# c".toList ']' ':' ⟨Or.inl rfl, Or.inr rfl, by decide⟩
      rfl (by decide) rfl (by decide) (by decide) (by decide)
  have padded :
      LayoutStep ⟨false, "[a] -> [b]\n::mod(k=1)\n# c".toList⟩
        ⟨false, "[a] -> [b]\n\t::mod(k=1)\r\n# c".toList⟩ :=
    @LayoutStep.padded false "[a] -> [b]\n".toList "::mod(k=1)".toList []
      "\n# c".toList ['\t'] ['\r'] ⟨Or.inr rfl, Or.inr rfl, by decide⟩
      (Or.inl rfl) (List.forall_mem_singleton.mpr (by decide))
      (List.forall_mem_singleton.mpr (by decide))
  have marked :
      LayoutStep ⟨false, "[a] -> [b]\n\t::mod(k=1)\r\n# c".toList⟩
        ⟨true, "[a] -> [b]\n\t::mod(k=1)\r\n# c".toList⟩ :=
    LayoutStep.marked _
  have written :
      SourceText.text ⟨true, "[a] -> [b]\n\t::mod(k=1)\r\n# c".toList⟩ =
        "\uFEFF[a] -> [b]\n\t::mod(k=1)\r\n# c" := by
    decide
  rw [← written]
  have unmarked :
      "[a] -> [b] ::mod(k=1)\n# c".toList.head? ≠ some '\uFEFF' := by
    decide
  exact ofText_relaid unmarked
    (((Relation.ReflTransGen.single broken).tail padded).tail marked)

end Document

end AnchorScript
