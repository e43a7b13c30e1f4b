import AnchorScript.Proofs.Reader.Concatenation

namespace AnchorScript

/-!
# Comments are isolated

A comment line divides its text as a blank line does: what stands before it and
what stands behind it are read apart, and the comment itself is read as one
comment and nothing else. So a comment may be dropped or worded anew without any
effect on what is read around it, and a line of another kind adds no comment.
-/

namespace Text

/-- The lines between the line feeds of a text, behind its byte-order mark. -/
def lines (text : String) : List (List Char) :=
  pieces '\n' (withoutMark text.toList)

/-- The text with other lines; a byte-order mark stays in front of them. -/
def withLines (text : String) (others : List (List Char)) : String :=
  String.ofList
    (if text.toList.head? = some '\uFEFF' then
      '\uFEFF' :: ['\n'].intercalate others
    else
      ['\n'].intercalate others)

/-- A text with its own lines is itself. -/
theorem withLines_lines (text : String) :
    withLines text (lines text) = text := by
  rw [withLines, lines, intercalate_pieces]
  split
  · rename_i isMarked
    obtain ⟨rest, split⟩ := List.head?_eq_some_iff.mp isMarked
    rw [split, withoutMark, ← split, String.ofList_toList]
  · rename_i notMarked
    rw [withoutMark_of_head?_ne notMarked, String.ofList_toList]

section Replacement

variable
  {text : String}
  {earlier later : List (List Char)}
  {line other : List Char}
  (divided : lines text = earlier ++ line :: later)

include divided

/-- A line that is replaced by a line leaves the other lines as they are. -/
theorem pieces_intercalate_replaced
    (unbroken : '\n' ∉ other) :
    pieces '\n' (['\n'].intercalate (earlier ++ other :: later)) =
      earlier ++ other :: later := by
  have untouched
      {piece : List Char}
      (member : piece ∈ earlier ++ line :: later) :
      '\n' ∉ piece :=
    not_mem_of_mem_pieces (divided ▸ member)
  refine pieces_intercalate (by simp) ?_
  intro piece member
  rcases List.mem_append.mp member with isEarlier | isHereOrLater
  · exact untouched (List.mem_append_left _ isEarlier)
  · rcases List.mem_cons.mp isHereOrLater with isOther | isLater
    · exact isOther ▸ unbroken
    · exact untouched
        (List.mem_append_right _ (List.mem_cons_of_mem _ isLater))

/-- A line that does not start with a mark does not bring one to the front of the text. -/
theorem head?_intercalate_replaced
    (notMarked : text.toList.head? ≠ some '\uFEFF')
    (bringsNone : (trim other).head? ≠ some '\uFEFF') :
    (['\n'].intercalate (earlier ++ other :: later)).head? ≠
      some '\uFEFF' := by
  intro isMark
  cases earlier with
  | nil =>
      rw [List.nil_append, head?_intercalate_cons (by decide)] at isMark
      exact bringsNone (head?_trim isMark (by decide))
  | cons first others =>
      rw [List.cons_append, head?_intercalate_cons (by decide)] at isMark
      have whole :
          ['\n'].intercalate (first :: others ++ line :: later) =
            text.toList := by
        rw [← divided, lines, intercalate_pieces,
          withoutMark_of_head?_ne notMarked]
      rw [← whole] at notMarked
      exact notMarked ((head?_intercalate_cons (by decide) _ _).mpr isMark)

/-- The lines of a text with a line replaced are its own lines with the line replaced. -/
theorem lines_withLines
    (unbroken : '\n' ∉ other)
    (bringsNone : (trim other).head? ≠ some '\uFEFF') :
    lines (withLines text (earlier ++ other :: later)) =
      earlier ++ other :: later := by
  rw [lines, withLines, String.toList_ofList]
  split
  · exact pieces_intercalate_replaced divided unbroken
  · rename_i notMarked
    rw [withoutMark_of_head?_ne
      (head?_intercalate_replaced divided notMarked bringsNone)]
    exact pieces_intercalate_replaced divided unbroken

end Replacement

end Text

namespace PhysicalLine

theorem ofText_of_blank
    {line : List Char}
    (isBlank : Text.trim line = []) :
    ofText line = .blank := by
  simp only [ofText, isBlank]

theorem ofText_of_comment
    {line body : List Char}
    (isComment : Text.trim line = '#' :: body) :
    ofText line = .comment (Text.trim body) := by
  simp only [ofText, isComment]

/-- Only a line that starts with the sign of a comment is one. -/
theorem comment?_ofText_eq_none
    {line : List Char}
    (notComment : (Text.trim line).head? ≠ some '#') :
    (ofText line).comment? = none := by
  unfold ofText
  split
  · rfl
  · rename_i isComment
    exact absurd (congrArg List.head? isComment) notComment
  · rfl
  · rfl

end PhysicalLine

/-- The bodies of the comments among lines. -/
def commentsOf (lines : List (List Char)) : List String :=
  (lines.map PhysicalLine.ofText).filterMap PhysicalLine.comment?

namespace Reading

/-- All that a reading found, and one more comment in front. -/
def withComment (comment : String) (reading : Reading) : Reading :=
  ⟨⟨reading.document.statements, comment :: reading.document.comments⟩,
    reading.skipped⟩

/-- A blank line divides the lines around it. -/
theorem ofPhysicalLines_append_blank
    (earlier later : List PhysicalLine) :
    ofPhysicalLines (earlier ++ .blank :: later) =
      (ofPhysicalLines earlier).append (ofPhysicalLines later) :=
  ofPhysicalLines_append (by simp)

/-- A comment divides the lines around it, and is read between them. -/
theorem ofPhysicalLines_append_comment
    (earlier later : List PhysicalLine)
    (body : List Char) :
    ofPhysicalLines (earlier ++ .comment body :: later) =
      (ofPhysicalLines earlier).append
        ((ofPhysicalLines later).withComment (String.ofList body)) :=
  ofPhysicalLines_append (by simp)

/-- The comments of a text are those of its lines. -/
theorem comments_ofText (text : String) :
    (ofText text).document.comments = commentsOf (Text.lines text) := by
  rw [ofText_eq_ofPhysicalLines]
  rfl

section Replacement

variable
  {text : String}
  {earlier later : List (List Char)}
  {line other : List Char}
  (divided : Text.lines text = earlier ++ line :: later)

include divided

/-- A text whose line is replaced is read from its lines, one of them replaced. -/
theorem ofText_withLines
    (unbroken : '\n' ∉ other)
    (bringsNone : (Text.trim other).head? ≠ some '\uFEFF') :
    ofText (Text.withLines text (earlier ++ other :: later)) =
      ofPhysicalLines
        (earlier.map PhysicalLine.ofText ++
          .ofText other :: later.map PhysicalLine.ofText) := by
  have replaced := Text.lines_withLines divided unbroken bringsNone
  rw [ofText_eq_ofPhysicalLines]
  exact congrArg ofPhysicalLines
    ((congrArg (List.map PhysicalLine.ofText) replaced).trans
      List.map_append)

/-- Where a line is replaced by a blank line, the lines around it are read apart. -/
theorem ofText_withLines_blank
    (unbroken : '\n' ∉ other)
    (isBlank : Text.trim other = []) :
    ofText (Text.withLines text (earlier ++ other :: later)) =
      (ofPhysicalLines (earlier.map PhysicalLine.ofText)).append
        (ofPhysicalLines (later.map PhysicalLine.ofText)) := by
  rw [ofText_withLines divided unbroken (by simp [isBlank]),
    PhysicalLine.ofText_of_blank isBlank, ofPhysicalLines_append_blank]

/-- Where a line is replaced by a comment, this is read between the lines around it. -/
theorem ofText_withLines_comment
    {body : List Char}
    (unbroken : '\n' ∉ other)
    (isComment : Text.trim other = '#' :: body) :
    ofText (Text.withLines text (earlier ++ other :: later)) =
      (ofPhysicalLines (earlier.map PhysicalLine.ofText)).append
        ((ofPhysicalLines (later.map PhysicalLine.ofText)).withComment
          (String.ofList (Text.trim body))) := by
  rw [ofText_withLines divided unbroken (by simp [isComment]),
    PhysicalLine.ofText_of_comment isComment,
    ofPhysicalLines_append_comment]

end Replacement

/--
Comments are isolated. Where a line of a text is a comment, the comments of the
text are those before it, its body, and those behind it. A blank line in its
place takes this body away, another comment replaces it, and in both cases the
statements and the skipped lines stay as they are. A line that is no comment
adds nothing to the comments.
-/
theorem ofText_withLines_isolated
    {text : String}
    {earlier later : List (List Char)}
    {line : List Char}
    (divided : Text.lines text = earlier ++ line :: later) :
    (∀ body,
      Text.trim line = '#' :: body →
        (ofText text).document.comments =
            commentsOf earlier ++ [String.ofList (Text.trim body)] ++
              commentsOf later ∧
          (∀ blank,
            '\n' ∉ blank →
            Text.trim blank = [] →
              ofText (Text.withLines text (earlier ++ blank :: later)) =
                ⟨⟨(ofText text).document.statements,
                    commentsOf earlier ++ commentsOf later⟩,
                  (ofText text).skipped⟩) ∧
          ∀ other otherBody,
            '\n' ∉ other →
            Text.trim other = '#' :: otherBody →
              ofText (Text.withLines text (earlier ++ other :: later)) =
                ⟨⟨(ofText text).document.statements,
                    commentsOf earlier ++
                        [String.ofList (Text.trim otherBody)] ++
                      commentsOf later⟩,
                  (ofText text).skipped⟩) ∧
      ((Text.trim line).head? ≠ some '#' →
        (ofText text).document.comments =
          commentsOf earlier ++ commentsOf later) := by
  refine ⟨?comment, ?other⟩
  case comment =>
    intro body isComment
    have unbroken : '\n' ∉ line :=
      Text.not_mem_of_mem_pieces
        (divided ▸ List.mem_append_right _ List.mem_cons_self)
    -- The text is itself a text whose line is replaced by a comment.
    have itself : Text.withLines text (earlier ++ line :: later) = text := by
      rw [← divided, Text.withLines_lines]
    have read := ofText_withLines_comment divided unbroken isComment
    rw [itself] at read
    rw [read]
    refine ⟨by simp [append, withComment, commentsOf, ofPhysicalLines], ?_, ?_⟩
    · intro blank blankUnbroken isBlank
      rw [ofText_withLines_blank divided blankUnbroken isBlank]
      rfl
    · intro other otherBody otherUnbroken isOther
      rw [ofText_withLines_comment divided otherUnbroken isOther]
      simp [append, withComment, commentsOf, ofPhysicalLines]
  case other =>
    intro notComment
    rw [comments_ofText, divided]
    simp [commentsOf, PhysicalLine.comment?_ofText_eq_none notComment]

/--
A comment that reads as a statement itself stands between a statement and what
could continue it. A blank line in its place takes away its body, and nothing else.
-/
theorem ofText_withLines_isolated_statement :
    let text := "\uFEFF# a\n[x] -> [y]\n # [c] -> [d]\r\n::mod(k=1)"
    let earlier := ["# a".toList, "[x] -> [y]".toList]
    let later := ["::mod(k=1)".toList]
    Text.lines text = earlier ++ " # [c] -> [d]\r".toList :: later ∧
      (ofText text).document.comments = ["a", "[c] -> [d]"] ∧
      ofText (Text.withLines text (earlier ++ "\t\r".toList :: later)) =
        ⟨⟨(ofText text).document.statements, ["a"]⟩,
          (ofText text).skipped⟩ := by
  intro text earlier later
  have divided :
      Text.lines text = earlier ++ " # [c] -> [d]\r".toList :: later := by
    decide
  obtain ⟨comment, _⟩ := ofText_withLines_isolated divided
  obtain ⟨comments, dropped, _⟩ := comment " [c] -> [d]".toList (by decide)
  refine ⟨divided, ?_, ?_⟩
  · rw [comments]
    decide
  · rw [dropped "\t\r".toList (by decide) (by decide)]
    have others : commentsOf earlier ++ commentsOf later = ["a"] := by
      decide
    rw [others]

end Reading

end AnchorScript
