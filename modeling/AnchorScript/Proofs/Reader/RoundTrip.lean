import AnchorScript.Proofs.Reader.WrittenStatement
import AnchorScript.Reader.Reading

namespace AnchorScript

/-!
# Written documents read back

The statements of a document, each on a line of its own, and its comments, each
on a line after a number sign, make a source text in whatever order the lines
are interleaved. Reading that text gives the document back, up to the sign of
zeros.
-/

/-- A line of a written document. -/
inductive SourceLine where
  | statement (written : Statement)
  | comment (body : String)

namespace SourceLine

/-- The line as it is written. -/
def render : SourceLine → String
  | statement written => written.render
  | comment body => "# " ++ body

/-- The statement on a line. -/
def statement? : SourceLine → Option Statement
  | statement written => some written
  | comment _ => none

/-- The comment on a line. -/
def comment? : SourceLine → Option String
  | statement _ => none
  | comment body => some body

/-- The line reads back. -/
def IsWritable : SourceLine → Prop
  | statement written => written.IsWritable
  | comment body => Text.trim body.toList = body.toList ∧ '\n' ∉ body.toList

/--
The lines of a text, with a line feed between two of them and perhaps after the
last.
-/
def textOf
    (lines : List SourceLine)
    (isEnded : Bool) :
    String :=
  String.intercalate "\n"
    (lines.map render ++ if isEnded then [""] else [])

end SourceLine

namespace Statement

private theorem exists_ends_render (statement : Statement) :
    ∃ middle last,
      statement.render.toList = '[' :: middle ++ [last] ∧
        Text.isBlank last = false := by
  cases isEmpty : statement.modifiers.isEmpty with
  | true =>
      refine
        ⟨statement.source.raw.toList ++ "] -> [".toList ++
          statement.target.raw.toList, ']', ?_, by decide⟩
      simp [render, isEmpty, Anchor.render]
  | false =>
      refine
        ⟨statement.source.raw.toList ++ "] -> [".toList ++
          statement.target.raw.toList ++ "] ::mod(".toList ++
          (String.intercalate ", "
            (statement.modifiers.entries.map
              Modifiers.renderEntry)).toList, ')', ?_, by decide⟩
      simp [render, isEmpty, Anchor.render, Modifiers.render]

private theorem lineFeed_not_mem_render
    {statement : Statement}
    (writable : statement.IsWritable) :
    '\n' ∉ statement.render.toList := by
  obtain ⟨⟨source, sourceRead, sourceWritable⟩,
    ⟨target, targetRead, targetWritable⟩, keys, values⟩ := writable
  have ends
      {anchor : Anchor}
      {raw : List Char}
      (read : anchor = Anchor.ofText raw)
      (isWritable : Anchor.IsWritableText raw) :
      '\n' ∉ anchor.raw.toList := by
    rw [Anchor.toList_raw read isWritable]
    exact isWritable.unbroken
  have block :
      '\n' ∉ [',', ' '].intercalate
        (statement.modifiers.entries.map
          (String.toList ∘ Modifiers.renderEntry)) := by
    refine Text.not_mem_intercalate (by decide) ?_
    intro part member
    obtain ⟨entry, isEntry, written⟩ := List.mem_map.mp member
    obtain ⟨literal, shape, unbroken, _⟩ :=
      Sentence.exists_literal_of_isWritable (values entry isEntry)
    rw [← written, Function.comp_apply, shape entry.1]
    simp only [List.mem_append, List.mem_cons, not_or]
    refine ⟨fun inKey => ?_, by decide, unbroken⟩
    exact absurd ((keys entry isEntry).2 _ inKey) (by decide)
  cases isEmpty : statement.modifiers.isEmpty <;>
    simp [render, isEmpty, Anchor.render, Modifiers.render,
      ends sourceRead sourceWritable, ends targetRead targetWritable, block]

end Statement

namespace PhysicalLine

/-- A line that starts with a number sign is a comment, whatever follows. -/
theorem ofText_hash (body : List Char) :
    ofText ('#' :: body) = .comment (Text.trim body) := by
  rw [ofText, Text.trim_cons (by decide)]
  simp only [Text.trim_trimEnd]

private theorem ofText_render (statement : Statement) :
    ofText statement.render.toList = .opening statement.render.toList := by
  obtain ⟨middle, last, shape, notBlank⟩ := statement.exists_ends_render
  have trimmed :
      Text.trim statement.render.toList = statement.render.toList := by
    refine Text.trim_eq_self ?_ ?_
    · intro character isFirst
      rw [shape, List.cons_append, List.head?_cons,
        Option.some.injEq] at isFirst
      exact isFirst ▸ (by decide)
    · intro character isLast
      rw [shape, List.getLast?_concat, Option.some.injEq] at isLast
      exact isLast ▸ notBlank
  rw [ofText, trimmed, shape]
  rfl

end PhysicalLine

namespace SourceLine

/-- What a physical line is that was written as a line of a document. -/
def physicalLine : SourceLine → PhysicalLine
  | statement written => .opening written.render.toList
  | comment body => .comment body.toList

private theorem ofText_render
    {line : SourceLine}
    (writable : line.IsWritable) :
    PhysicalLine.ofText line.render.toList = line.physicalLine := by
  cases line with
  | statement written =>
      exact PhysicalLine.ofText_render written
  | comment body =>
      have written :
          (render (comment body)).toList = '#' :: ([' '] ++ body.toList) := by
        simp [render]
      rw [written, PhysicalLine.ofText_hash,
        Text.trim_blanks_append (List.forall_mem_singleton.mpr (by decide)),
        writable.1]
      rfl

/--
A written line is not empty, has no line feed, and starts with a bracket or a
number sign.
-/
private theorem render_shape
    {line : SourceLine}
    (writable : line.IsWritable) :
    '\n' ∉ line.render.toList ∧
      ∃ first rest,
        line.render.toList = first :: rest ∧ first ≠ '\uFEFF' := by
  cases line with
  | statement written =>
      obtain ⟨middle, last, shape, _⟩ := written.exists_ends_render
      exact ⟨Statement.lineFeed_not_mem_render writable,
        '[', middle ++ [last], shape, by decide⟩
  | comment body =>
      have shape : (render (comment body)).toList = '#' :: ' ' :: body.toList := by
        simp [render]
      refine ⟨?_, '#', ' ' :: body.toList, shape, by decide⟩
      rw [shape]
      simp only [List.mem_cons, not_or]
      exact ⟨by decide, by decide, writable.2⟩

/-- A written text does not start with a byte order mark. -/
private theorem withoutMark_textOf
    {lines : List SourceLine}
    (writable : ∀ line ∈ lines, line.IsWritable)
    (isEnded : Bool) :
    Text.withoutMark (textOf lines isEnded).toList =
      (textOf lines isEnded).toList := by
  cases lines with
  | nil =>
      cases isEnded <;> rfl
  | cons line rest =>
      obtain ⟨_, first, others, written, notMark⟩ :=
        render_shape (writable line List.mem_cons_self)
      obtain ⟨later, text⟩ :
          ∃ later, (textOf (line :: rest) isEnded).toList = first :: later := by
        by_cases isLast : rest = [] ∧ isEnded = false
        · obtain ⟨rfl, rfl⟩ := isLast
          exact ⟨others, by simp [textOf, written]⟩
        · have more :
              rest.map render ++ (if isEnded then [""] else []) ≠ [] := by
            intro noMore
            refine isLast ⟨?_, ?_⟩
            · exact List.map_eq_nil_iff.mp (List.append_eq_nil_iff.mp noMore).1
            · cases isEnded with
              | false => rfl
              | true => simp at noMore
          rw [textOf, List.map_cons, List.cons_append,
            String.toList_intercalate, List.map_cons,
            List.intercalate_cons_of_ne_nil (by simpa using more), written]
          exact ⟨_, rfl⟩
      rw [text]
      exact Text.withoutMark_of_head?_ne (by simpa using notMark)

private theorem physicalLines_textOf
    {lines : List SourceLine}
    (writable : ∀ line ∈ lines, line.IsWritable)
    (isEnded : Bool) :
    JoinedText.physicalLines (textOf lines isEnded).toList =
      lines.map physicalLine := by
  let rendered := lines.map fun line => line.render.toList
  have text :
      (textOf lines isEnded).toList =
        ['\n'].intercalate (rendered ++ if isEnded then [[]] else []) := by
    rw [textOf, String.toList_intercalate]
    cases isEnded <;> simp [rendered, Function.comp_def]
  have unbroken : ∀ part ∈ rendered, '\n' ∉ part := by
    intro part member
    obtain ⟨line, isLine, shape⟩ := List.mem_map.mp member
    exact shape ▸ (render_shape (writable line isLine)).1
  have nonempty : ∀ part ∈ rendered, part ≠ [] := by
    intro part member
    obtain ⟨line, isLine, shape⟩ := List.mem_map.mp member
    obtain ⟨_, first, rest, written, _⟩ := render_shape (writable line isLine)
    rw [← shape, written]
    exact List.cons_ne_nil first rest
  have found :
      Text.physicalLines (textOf lines isEnded).toList = rendered := by
    rw [text]
    cases isEnded with
    | false =>
        simpa using Text.physicalLines_intercalate nonempty unbroken
    | true =>
        exact Text.physicalLines_intercalate_ended unbroken
  rw [JoinedText.physicalLines, withoutMark_textOf writable isEnded,
    found, List.map_map]
  exact List.map_congr_left fun line member =>
    ofText_render (writable line member)

/-- The logical line that a line is by itself. -/
def logicalLine : SourceLine → LogicalLine
  | statement written => .text written.render
  | comment _ => .separator

private theorem ofLines_physicalLine (lines : List SourceLine) :
    LogicalLine.Joining.ofLines (lines.map physicalLine) =
      ⟨[], lines.map logicalLine⟩ := by
  induction lines with
  | nil =>
      rfl
  | cons line rest inductionHypothesis =>
      rw [LogicalLine.Joining.ofLines] at inductionHypothesis ⊢
      rw [List.map_cons, List.foldr_cons, inductionHypothesis]
      cases line with
      | statement written =>
          simp [physicalLine, logicalLine, LogicalLine.Joining.prepend,
            LogicalLine.ofRun]
      | comment body =>
          simp [physicalLine, logicalLine, LogicalLine.Joining.prepend,
            LogicalLine.Joining.close]

private theorem filterMap_text?_logicalLine (lines : List SourceLine) :
    (lines.map logicalLine).filterMap LogicalLine.text? =
      (lines.filterMap statement?).map Statement.render := by
  induction lines with
  | nil =>
      rfl
  | cons line rest inductionHypothesis =>
      cases line with
      | statement written =>
          exact congrArg (written.render :: ·) inductionHypothesis
      | comment body =>
          exact inductionHypothesis

private theorem filterMap_comment?_physicalLine (lines : List SourceLine) :
    (lines.map physicalLine).filterMap PhysicalLine.comment? =
      lines.filterMap comment? := by
  induction lines with
  | nil =>
      rfl
  | cons line rest inductionHypothesis =>
      cases line with
      | statement written =>
          exact inductionHypothesis
      | comment body =>
          rw [List.map_cons, physicalLine,
            List.filterMap_cons_some
              (b := body) (by simp [PhysicalLine.comment?]),
            List.filterMap_cons_some (f := comment?) (b := body) rfl,
            inductionHypothesis]

/-- What reading a written text sees: its statements as lines, and its comments. -/
theorem joinedText_textOf
    {lines : List SourceLine}
    (writable : ∀ line ∈ lines, line.IsWritable)
    (isEnded : Bool) :
    Reading.lineTexts (JoinedText.ofText (textOf lines isEnded)) =
        (lines.filterMap statement?).map Statement.render ∧
      (JoinedText.ofText (textOf lines isEnded)).comments =
        lines.filterMap comment? := by
  have physical := physicalLines_textOf writable isEnded
  constructor
  · simp only [Reading.lineTexts, JoinedText.ofText, physical,
      ofLines_physicalLine, LogicalLine.Joining.close, if_true]
    exact filterMap_text?_logicalLine lines
  · simp only [JoinedText.ofText, physical]
    exact filterMap_comment?_physicalLine lines

private theorem isWritable_of_parts
    {line : SourceLine}
    (statements :
      ∀ written, line.statement? = some written → written.IsWritable)
    (comments :
      ∀ body, line.comment? = some body →
        Text.trim body.toList = body.toList ∧ '\n' ∉ body.toList) :
    line.IsWritable := by
  cases line with
  | statement written =>
      exact statements written rfl
  | comment body =>
      exact comments body rfl

end SourceLine

/-- Statements that can be written are read back one by one. -/
theorem Statement.allAgree_filterMap_ofLine?
    {statements : List Statement}
    (writable : ∀ written ∈ statements, written.IsWritable) :
    allAgree ((statements.map render).filterMap ofLine?) statements = true := by
  induction statements with
  | nil =>
      rfl
  | cons written rest inductionHypothesis =>
      obtain ⟨read, found, agrees⟩ :=
        exists_ofLine?_render (writable written List.mem_cons_self)
      rw [List.map_cons, List.filterMap_cons_some found, allAgree, agrees,
        Bool.true_and]
      exact inductionHypothesis fun later member =>
        writable later (List.mem_cons_of_mem _ member)

namespace Document

/--
Printing, then reading, gives a document back: its statements each on a line and
its comments between them in any order, with or without a line feed at the end.
-/
theorem ofText_textOf_agrees
    {document : Document}
    {lines : List SourceLine}
    (statementLines :
      lines.filterMap SourceLine.statement? = document.statements)
    (commentLines :
      lines.filterMap SourceLine.comment? = document.comments)
    (statements : ∀ written ∈ document.statements, written.IsWritable)
    (comments :
      ∀ body ∈ document.comments,
        Text.trim body.toList = body.toList ∧ '\n' ∉ body.toList)
    (isEnded : Bool) :
    (ofText (SourceLine.textOf lines isEnded)).agrees document = true := by
  have writable : ∀ line ∈ lines, line.IsWritable := by
    intro line member
    refine SourceLine.isWritable_of_parts ?_ ?_
    · intro written isStatement
      refine statements written ?_
      rw [← statementLines]
      exact List.mem_filterMap.mpr ⟨line, member, isStatement⟩
    · intro body isComment
      refine comments body ?_
      rw [← commentLines]
      exact List.mem_filterMap.mpr ⟨line, member, isComment⟩
  obtain ⟨texts, bodies⟩ := SourceLine.joinedText_textOf writable isEnded
  have readStatements :=
    Statement.allAgree_filterMap_ofLine? statements
  simp only [ofText, Reading.ofText, agrees, texts, bodies, statementLines,
    commentLines, readStatements, decide_true, Bool.and_self]

/-- A label that holds what delimits labels, pairs, blocks and anchors. -/
private def label : List Char :=
  [']', '-', '>', '[', ':', ':', 'm', 'o', 'd'] ++
    ['(', 'k', '=', '1', ')', ',', '\\', '"']

/-- A statement with this label, a number and a flag. -/
private def delimited : Statement where
  source := Anchor.ofText ['[', 'a', '-', '>']
  target := Anchor.ofText ['b', ':', 'c']
  modifiers :=
    ⟨[("label", .text (String.ofList label)),
      ("open", .flag true),
      ("weight", .number ⟨true, 1022, 0⟩)],
      by decide⟩

private theorem isWritable_delimited : delimited.IsWritable := by
  have escaped : Sentence.Escaped '"' label := by
    repeat
      first
      | exact .nil
      | refine .plain (by decide) (by decide) ?_
      | refine .escape (by decide) ?_
  have balanced : Sentence.Balanced label := by
    have group : Sentence.Balanced ['(', 'k', '=', '1', ')', ',', '\\', '"'] :=
      @Sentence.Balanced.group ['k', '=', '1'] [',', '\\', '"']
        (by decide) (by decide) (.of_not_mem (by decide) (by decide))
    exact Sentence.Balanced.append
      (.of_not_mem (by decide) (by decide)) group
  have readsBack : (Value.text (String.ofList label)).IsWritable := by
    rw [Value.IsWritable, String.toList_ofList]
    exact ⟨by decide, escaped, balanced⟩
  have isModerate : Value.IsModerate ⟨true, 1022, 0⟩ :=
    Value.isPlainNumber_iff.mp (by decide +kernel)
  have isKey
      {key : String}
      (nonempty : key.toList ≠ [])
      (isWord : key.toList.all Reader.isWord = true) :
      IsWritableKey key :=
    ⟨nonempty, fun character member =>
      Reader.isWord_iff.mp (List.all_eq_true.mp isWord character member)⟩
  constructor
  case source =>
    refine ⟨['[', 'a', '-', '>'], rfl, ?_⟩
    constructor <;> decide
  case target =>
    refine ⟨['b', ':', 'c'], rfl, ?_⟩
    constructor <;> decide
  case keys =>
    exact
      List.forall_mem_cons.mpr ⟨isKey (by decide) (by decide),
        List.forall_mem_cons.mpr ⟨isKey (by decide) (by decide),
          List.forall_mem_singleton.mpr (isKey (by decide) (by decide))⟩⟩
  case values =>
    exact
      List.forall_mem_cons.mpr ⟨readsBack,
        List.forall_mem_cons.mpr ⟨trivial,
          List.forall_mem_singleton.mpr (Or.inr isModerate)⟩⟩

/-- Delimiters within a label and a statement within a comment stay where they are. -/
theorem ofText_textOf_agrees_delimited :
    (ofText
      (SourceLine.textOf
        [.comment "[a] -> [b]", .statement delimited, .comment "",
          .statement delimited]
        false)).agrees
      ⟨[delimited, delimited], ["[a] -> [b]", ""]⟩ = true := by
  refine ofText_textOf_agrees rfl rfl ?_ ?_ false
  · exact List.forall_mem_cons.mpr
      ⟨isWritable_delimited, List.forall_mem_singleton.mpr isWritable_delimited⟩
  · exact List.forall_mem_cons.mpr
      ⟨⟨by decide, by decide⟩,
        List.forall_mem_singleton.mpr ⟨by decide, by decide⟩⟩

end Document

end AnchorScript
