import AnchorScript.Proofs.Reader.Comments
import AnchorScript.Proofs.Text.Lines
import Mathlib.Data.List.SplitBy

namespace AnchorScript

/-!
# Logical lines are runs

Joining builds the logical lines from the end of a text. Here its lines are
divided as a reader of the text would divide them: a line that separates stands
alone, and any other line goes on with the line before it, unless that one
separates or the line opens a statement. Each part is one logical line.
-/

namespace TrimmedLine

/-- A blank line and a comment separate the lines around them. -/
def separates (line : List Char) : Bool :=
  line = [] || line.head? = some '#'

/-- A line that opens a statement continues nothing. -/
def opensStatement (line : List Char) : Bool :=
  line.head? = some '['

/-- The line continues the line before it, if that one can be continued. -/
def continues (line : List Char) : Bool :=
  !separates line && !opensStatement line

/-- The first line is no separator, and the second continues it. -/
def belongTogether (previous line : List Char) : Bool :=
  !separates previous && continues line

/-- Lines in parts: longest runs of lines that belong together, and separators one by one. -/
def parts (lines : List (List Char)) : List (List (List Char)) :=
  lines.splitBy belongTogether

/-- The body of the comment that a line is. -/
def comment? : List Char → Option String
  | '#' :: body => some (String.ofList (Text.trim body))
  | _ => none

theorem separates_of_continues
    {line : List Char}
    (goesOn : continues line = true) :
    separates line = false := by
  simp only [continues, Bool.and_eq_true, Bool.not_eq_true'] at goesOn
  exact goesOn.1

/-- A line that separates is a part. -/
theorem parts_separator_cons
    {line : List Char}
    (isSeparator : separates line = true)
    (rest : List (List Char)) :
    parts (line :: rest) = [line] :: parts rest := by
  have apart :
      ∀ previous ∈ [line].getLast?,
        ∀ next ∈ rest.head?, belongTogether previous next = false := by
    intro previous isLine next _
    cases isLine
    simp [belongTogether, isSeparator]
  exact List.splitBy_append apart

/-- A run is a part when the line after it continues nothing. -/
theorem parts_run_append
    {first : List Char}
    {others rest : List (List Char)}
    (notSeparator : separates first = false)
    (allContinue : ∀ line ∈ others, continues line = true)
    (fresh : ∀ line, rest.head? = some line → continues line = false) :
    parts (first :: others ++ rest) = (first :: others) :: parts rest := by
  have together :
      (first :: others).IsChain fun previous line =>
        belongTogether previous line = true := by
    apply List.Pairwise.isChain
    apply List.pairwise_cons.mpr
    constructor
    · intro line member
      simp [belongTogether, notSeparator, allContinue line member]
    · apply List.pairwise_of_forall_mem_list
      intro previous isPrevious line member
      simp [belongTogether, allContinue line member,
        separates_of_continues (allContinue previous isPrevious)]
  have apart :
      ∀ previous ∈ (first :: others).getLast?,
        ∀ next ∈ rest.head?, belongTogether previous next = false := by
    intro previous _ next isNext
    simp [belongTogether, fresh next isNext]
  rw [parts, List.splitBy_append apart,
    List.splitBy_of_isChain (List.cons_ne_nil _ _) together]
  rfl

/-- Where at least two lines belong together, none of them separates. -/
private theorem separates_of_isChain
    {first second : List Char}
    {rest : List (List Char)}
    (together :
      (first :: second :: rest).IsChain fun previous line =>
        belongTogether previous line = true) :
    ∀ line ∈ first :: second :: rest, separates line = false := by
  induction rest generalizing first second with
  | nil =>
      have pair := (List.isChain_cons_cons.mp together).1
      simp only [belongTogether, Bool.and_eq_true, Bool.not_eq_true'] at pair
      simp [pair.1, separates_of_continues pair.2]
  | cons third rest inductionHypothesis =>
      obtain ⟨pair, later⟩ := List.isChain_cons_cons.mp together
      simp only [belongTogether, Bool.and_eq_true, Bool.not_eq_true'] at pair
      exact List.forall_mem_cons.mpr ⟨pair.1, inductionHypothesis later⟩

/-- A line that separates shares its part with no other line. -/
theorem eq_singleton_of_separates
    {lines part : List (List Char)}
    {line : List Char}
    (isPart : part ∈ parts lines)
    (member : line ∈ part)
    (isSeparator : separates line = true) :
    part = [line] := by
  have together := List.isChain_of_mem_splitBy isPart
  cases part with
  | nil =>
      cases member
  | cons first others =>
      cases others with
      | nil =>
          rw [List.mem_singleton.mp member]
      | cons second rest =>
          have notSeparator := separates_of_isChain together line member
          exact absurd (isSeparator.symm.trans notSeparator) (by decide)

/-- The first line opens the first part. -/
private theorem exists_parts_cons
    (line : List Char)
    (after : List (List Char)) :
    ∃ rest later, parts (line :: after) = (line :: rest) :: later := by
  have whole := List.flatten_splitBy belongTogether (line :: after)
  have nonempty := List.nil_notMem_splitBy belongTogether (line :: after)
  unfold parts
  cases divided : (line :: after).splitBy belongTogether with
  | nil =>
      simp [divided] at whole
  | cons part later =>
      rw [divided] at whole nonempty
      cases part with
      | nil =>
          simp at nonempty
      | cons first rest =>
          rw [List.flatten_cons, List.cons_append, List.cons.injEq] at whole
          exact ⟨rest, later, by rw [whole.1]⟩

/--
A line that is no separator opens a part exactly when it opens a statement, when
it is the first line, or when the line before it separates.
-/
theorem opens_part_iff
    {before after : List (List Char)}
    {line : List Char}
    (notSeparator : separates line = false) :
    (∃ rest later,
        parts (before ++ line :: after) =
          parts before ++ (line :: rest) :: later) ↔
      opensStatement line = true ∨
        ∀ previous, before.getLast? = some previous →
          separates previous = true := by
  constructor
  · rintro ⟨rest, later, divided⟩
    apply or_iff_not_imp_right.mpr
    intro notAll
    simp only [not_forall] at notAll
    obtain ⟨previous, isPrevious, notSeparated⟩ := notAll
    have nonempty : before ≠ [] := by
      rintro rfl
      cases isPrevious
    have isLast : before.getLast nonempty = previous := by
      rwa [List.getLast?_eq_some_getLast nonempty,
        Option.some.injEq] at isPrevious
    -- Otherwise the line would belong to the part of the line before it.
    have apart :=
      List.isChain_getLast_head_splitBy belongTogether
        (before ++ line :: after)
    rw [← parts, divided] at apart
    obtain ⟨_, _, between⟩ :=
      (List.isChain_append.mp apart).2.2 _
        (List.getLast_mem_getLast? (List.splitBy_ne_nil.mpr nonempty)) _ rfl
    rw [List.getLast_getLast_splitBy belongTogether nonempty, isLast,
      List.head_cons] at between
    simpa [belongTogether, continues, notSeparated, notSeparator] using between
  · intro opens
    have apart :
        ∀ previous ∈ before.getLast?, belongTogether previous line = false := by
      intro previous isPrevious
      rcases opens with opensHere | afterSeparator
      · simp [belongTogether, continues, opensHere]
      · simp [belongTogether, afterSeparator previous isPrevious]
    obtain ⟨rest, later, divided⟩ := exists_parts_cons line after
    refine ⟨rest, later, ?_⟩
    rw [← divided]
    exact List.splitBy_append_cons after apart

theorem exists_head_of_trimmed
    {line : List Char}
    (trimmed : Text.trim line = line)
    (notSeparator : separates line = false) :
    ∃ first,
      line.head? = some first ∧
        Text.isBlank first = false ∧ first ≠ '#' := by
  cases line with
  | nil =>
      cases notSeparator
  | cons first rest =>
      refine ⟨first, rfl, Text.isBlank_head_of_trim_eq_self trimmed rfl, ?_⟩
      rintro rfl
      cases notSeparator

theorem exists_getLast_of_trimmed
    {line : List Char}
    (trimmed : Text.trim line = line)
    (notSeparator : separates line = false) :
    ∃ last, line.getLast? = some last ∧ Text.isBlank last = false := by
  have nonempty : line ≠ [] := by
    rintro rfl
    cases notSeparator
  have isLast := List.getLast?_eq_some_getLast nonempty
  exact ⟨_, isLast, Text.isBlank_getLast_of_trim_eq_self trimmed isLast⟩

end TrimmedLine

open TrimmedLine

namespace PhysicalLine

/-- The first character of a trimmed line tells what it is. -/
theorem ofText_of_trimmed
    {line : List Char}
    (trimmed : Text.trim line = line) :
    (separates line = true ∧
        (ofText line = .blank ∨ ∃ body, ofText line = .comment body)) ∨
      (separates line = false ∧ opensStatement line = true ∧
        ofText line = .opening line) ∨
      (continues line = true ∧ ofText line = .continuation line) := by
  cases line with
  | nil =>
      exact Or.inl ⟨rfl, Or.inl rfl⟩
  | cons first rest =>
      by_cases isSign : first = '#'
      · subst isSign
        exact Or.inl ⟨rfl, Or.inr ⟨_, ofText_of_comment trimmed⟩⟩
      by_cases isBracket : first = '['
      · subst isBracket
        exact Or.inr (Or.inl ⟨rfl, rfl, ofText_of_opening trimmed⟩)
      refine
        Or.inr (Or.inr ⟨?_, ofText_of_continuation trimmed isSign isBracket⟩)
      simp [continues, separates, opensStatement, isSign, isBracket]

theorem comment?_ofText_of_trimmed
    {line : List Char}
    (trimmed : Text.trim line = line) :
    (ofText line).comment? = TrimmedLine.comment? line := by
  unfold TrimmedLine.comment?
  split
  · rw [ofText_of_comment trimmed]
    rfl
  · rename_i notComment
    apply comment?_ofText_eq_none
    rw [trimmed]
    intro isSign
    obtain ⟨body, split⟩ := List.head?_eq_some_iff.mp isSign
    exact notComment body split

end PhysicalLine

namespace LogicalLine

/-- The logical line of a part: a separator, or its lines with single spaces between them. -/
def ofPart (part : List (List Char)) : LogicalLine :=
  if part.any separates then .separator
  else .text (String.ofList ([' '].intercalate part))

theorem ofPart_separator
    {line : List Char}
    (isSeparator : separates line = true) :
    ofPart [line] = .separator := by
  simp [ofPart, isSeparator]

theorem ofPart_run
    {first : List Char}
    {others : List (List Char)}
    (notSeparator : separates first = false)
    (allContinue : ∀ line ∈ others, continues line = true) :
    ofPart (first :: others) = ofRun (first :: others) := by
  have noSeparator :
      (first :: others).any separates = false := by
    rw [List.any_cons, notSeparator, Bool.false_or, List.any_eq_false]
    intro line member
    simp [separates_of_continues (allContinue line member)]
  rw [ofPart, noSeparator, if_neg Bool.false_ne_true, ofRun]

/-- What the text of a logical line is like: it could not be that of a separator. -/
structure IsLineText (text : List Char) : Prop where
  nonempty : text ≠ []
  notComment : text.head? ≠ some '#'
  startsTrimmed :
    ∀ first, text.head? = some first → Text.isBlank first = false
  endsTrimmed :
    ∀ last, text.getLast? = some last → Text.isBlank last = false
  unbroken : '\n' ∉ text

/-- Trimmed lines that do not separate make such a text. -/
theorem isLineText_intercalate
    {part : List (List Char)}
    (nonempty : part ≠ [])
    (trimmed : ∀ line ∈ part, Text.trim line = line)
    (noSeparator : ∀ line ∈ part, separates line = false)
    (unbroken : ∀ line ∈ part, '\n' ∉ line) :
    IsLineText ([' '].intercalate part) := by
  obtain ⟨line, others, rfl⟩ := List.exists_cons_of_ne_nil nonempty
  obtain ⟨first, isFirst, firstNotBlank, notSign⟩ :=
    exists_head_of_trimmed (trimmed line List.mem_cons_self)
      (noSeparator line List.mem_cons_self)
  have starts :
      ([' '].intercalate (line :: others)).head? = some first := by
    apply (Text.head?_intercalate_cons _ _ _).mpr isFirst
    exact Text.ne_of_isBlank (by decide) firstNotBlank
  have isFinal := List.getLast?_eq_some_getLast nonempty
  have inPart := List.mem_of_getLast? isFinal
  obtain ⟨last, isLast, lastNotBlank⟩ :=
    exists_getLast_of_trimmed (trimmed _ inPart) (noSeparator _ inPart)
  have ends :
      ([' '].intercalate (line :: others)).getLast? = some last :=
    Text.getLast?_intercalate isFinal isLast
  constructor
  case nonempty =>
    intro isEmpty
    simp [isEmpty] at starts
  case notComment =>
    rw [starts]
    exact fun isSign => notSign (Option.some.inj isSign)
  case startsTrimmed =>
    intro character isHead
    cases starts.symm.trans isHead
    exact firstNotBlank
  case endsTrimmed =>
    intro character isEnd
    cases ends.symm.trans isEnd
    exact lastNotBlank
  case unbroken =>
    exact Text.not_mem_intercalate (by decide) unbroken

theorem isLineText_of_ofPart
    {part : List (List Char)}
    {text : String}
    (isText : ofPart part = .text text)
    (nonempty : part ≠ [])
    (trimmed : ∀ line ∈ part, Text.trim line = line)
    (unbroken : ∀ line ∈ part, '\n' ∉ line) :
    IsLineText text.toList := by
  cases separated : part.any separates with
  | true =>
      rw [ofPart, separated, if_pos rfl] at isText
      cases isText
  | false =>
      rw [ofPart, separated, if_neg Bool.false_ne_true] at isText
      cases isText
      rw [String.toList_ofList]
      apply isLineText_intercalate nonempty trimmed _ unbroken
      intro line member
      simpa using List.any_eq_false.mp separated line member

namespace Joining

/-- The joining of trimmed lines: those in front that continue something are pending. -/
def ofTrimmed (lines : List (List Char)) : Joining where
  pending := lines.takeWhile continues
  lines := (parts (lines.dropWhile continues)).map ofPart

private theorem continues_of_mem_takeWhile
    (lines : List (List Char)) :
    ∀ line ∈ lines.takeWhile continues, continues line = true :=
  List.all_eq_true.mp List.all_takeWhile

private theorem continues_head_dropWhile
    (lines : List (List Char))
    (line : List Char)
    (isFirst : (lines.dropWhile continues).head? = some line) :
    continues line = false := by
  have stopped := List.head?_dropWhile_not continues lines
  rwa [isFirst] at stopped

/-- With nothing before them, the pending lines are a run of their own. -/
theorem close_ofTrimmed (lines : List (List Char)) :
    (ofTrimmed lines).close = (parts lines).map ofPart := by
  have whole :
      lines.takeWhile continues ++ lines.dropWhile continues = lines :=
    List.takeWhile_append_dropWhile
  cases pending : lines.takeWhile continues with
  | nil =>
      rw [pending, List.nil_append] at whole
      simp only [close, ofTrimmed, pending, whole, if_true]
  | cons first others =>
      have allContinue := continues_of_mem_takeWhile lines
      rw [pending, List.forall_mem_cons] at allContinue
      obtain ⟨firstContinues, othersContinue⟩ := allContinue
      have notSeparator := separates_of_continues firstContinues
      have divided :=
        parts_run_append notSeparator othersContinue
          (continues_head_dropWhile lines)
      rw [← pending, whole, pending] at divided
      rw [divided, List.map_cons, ofPart_run notSeparator othersContinue]
      simp only [close, ofTrimmed, pending, List.cons_ne_nil, if_false]

/-- One more line in front is joined as it is divided. -/
theorem prepend_ofTrimmed
    {line : List Char}
    (trimmed : Text.trim line = line)
    (lines : List (List Char)) :
    prepend (.ofText line) (ofTrimmed lines) = ofTrimmed (line :: lines) := by
  rcases PhysicalLine.ofText_of_trimmed trimmed with
    ⟨isSeparator, kind⟩ | ⟨notSeparator, opens, kind⟩ | ⟨goesOn, kind⟩
  · have stops : continues line = false := by
      simp [continues, isSeparator]
    have separated :
        prepend (.ofText line) (ofTrimmed lines) =
          ⟨[], .separator :: (ofTrimmed lines).close⟩ := by
      rcases kind with isBlank | ⟨body, isComment⟩
      · rw [isBlank]
        rfl
      · rw [isComment]
        rfl
    rw [separated, close_ofTrimmed, ofTrimmed]
    simp [stops, parts_separator_cons isSeparator,
      ofPart_separator isSeparator]
  · have stops : continues line = false := by
      simp [continues, opens]
    have allContinue := continues_of_mem_takeWhile lines
    have divided :=
      parts_run_append notSeparator allContinue
        (continues_head_dropWhile lines)
    rw [List.cons_append, List.takeWhile_append_dropWhile] at divided
    rw [kind, ofTrimmed, ofTrimmed]
    simp [stops, prepend, divided, ofPart_run notSeparator allContinue]
  · rw [kind, ofTrimmed, ofTrimmed]
    simp [goesOn, prepend]

/-- Trimmed lines are joined as they are divided. -/
theorem ofLines_eq_ofTrimmed
    {lines : List (List Char)}
    (trimmed : ∀ line ∈ lines, Text.trim line = line) :
    ofLines (lines.map PhysicalLine.ofText) = ofTrimmed lines := by
  induction lines with
  | nil =>
      rfl
  | cons line rest inductionHypothesis =>
      obtain ⟨here, later⟩ := List.forall_mem_cons.mp trimmed
      rw [List.map_cons, ofLines_cons, inductionHypothesis later,
        prepend_ofTrimmed here]

end Joining

end LogicalLine

namespace JoinedText

/--
What joining trimmed lines means. The comments are the lines that are comments,
and the logical lines are the parts of all lines. No line is lost, none comes
twice and none changes its place; a line that separates is a part by itself, and
it is said which other lines open a part. What is not a separator has a text
that could not be one.
-/
structure Joins
    (joined : JoinedText)
    (physical : List (List Char)) : Prop where
  comments : joined.comments = physical.filterMap TrimmedLine.comment?
  logical : joined.lines = (parts physical).map LogicalLine.ofPart
  complete : (parts physical).flatten = physical
  separators :
    ∀ part ∈ parts physical,
      ∀ line ∈ part, separates line = true → part = [line]
  openings :
    ∀ before line after,
      physical = before ++ line :: after →
      separates line = false →
        ((∃ rest later,
            parts physical = parts before ++ (line :: rest) :: later) ↔
          opensStatement line = true ∨
            ∀ previous, before.getLast? = some previous →
              separates previous = true)
  texts :
    ∀ text, .text text ∈ joined.lines → LogicalLine.IsLineText text.toList

theorem physicalLines_eq_map_trimmedLines (text : String) :
    physicalLines text.toList =
      (Text.trimmedLines text).map PhysicalLine.ofText := by
  have retrimmed
      (line : List Char) :
      PhysicalLine.ofText (Text.trim line) = PhysicalLine.ofText line := by
    simp only [PhysicalLine.ofText, Text.trim_trim]
  rw [Text.trimmedLines_eq_map_trim, List.map_map, physicalLines]
  simp only [Function.comp_def, retrimmed]

/-- Every text is joined from its lines, trimmed. -/
theorem ofText_joins (text : String) :
    (ofText text).Joins (Text.trimmedLines text) := by
  have trimmed :
      ∀ line ∈ Text.trimmedLines text, Text.trim line = line :=
    fun _ => Text.trim_of_mem_trimmedLines
  have divided :
      (ofText text).lines =
        (parts (Text.trimmedLines text)).map LogicalLine.ofPart := by
    simp only [ofText, physicalLines_eq_map_trimmedLines,
      LogicalLine.Joining.ofLines_eq_ofTrimmed trimmed,
      LogicalLine.Joining.close_ofTrimmed]
  have complete :
      (parts (Text.trimmedLines text)).flatten = Text.trimmedLines text :=
    List.flatten_splitBy belongTogether _
  constructor
  case comments =>
    simp only [ofText, physicalLines_eq_map_trimmedLines,
      List.filterMap_map]
    apply List.filterMap_congr
    intro line member
    exact PhysicalLine.comment?_ofText_of_trimmed (trimmed line member)
  case logical =>
    exact divided
  case complete =>
    exact complete
  case separators =>
    exact fun part isPart line => eq_singleton_of_separates isPart
  case openings =>
    intro before line after split notSeparator
    rw [split]
    exact opens_part_iff notSeparator
  case texts =>
    intro written member
    rw [divided] at member
    obtain ⟨part, isPart, isText⟩ := List.mem_map.mp member
    have inText
        {line : List Char}
        (inPart : line ∈ part) :
        line ∈ Text.trimmedLines text := by
      rw [← complete]
      exact List.mem_flatten_of_mem isPart inPart
    apply LogicalLine.isLineText_of_ofPart isText
      (List.ne_nil_of_mem_splitBy isPart)
    · exact fun line inPart => trimmed line (inText inPart)
    · exact fun line inPart =>
        Text.lineFeed_not_mem_of_mem_trimmedLines (inText inPart)

/-- A bare line in front, one that continues a statement, and one behind a comment. -/
example :
    parts (Text.trimmedLines "\uFEFFa\r\n[b]\n\tc\n# d\ne\n") =
      [["a".toList], ["[b]".toList, "c".toList], ["# d".toList],
        ["e".toList]] := by
  decide

end JoinedText

end AnchorScript
