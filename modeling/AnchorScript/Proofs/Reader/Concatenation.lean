import AnchorScript.Proofs.Text.Pieces
import AnchorScript.Proofs.Text.Trimming
import AnchorScript.Reader.Reading

namespace AnchorScript

/-!
# Texts read one after the other

What a text says depends on its physical lines alone. Where the second of two
texts starts with a line that continues nothing, nothing of it belongs to the
last logical line of the first, and the reading of both is one reading after
the other.
-/

namespace PhysicalLine

theorem ofText_of_opening
    {line rest : List Char}
    (trimmed : Text.trim line = '[' :: rest) :
    ofText line = .opening ('[' :: rest) := by
  simp only [ofText, trimmed]

theorem ofText_of_continuation
    {line rest : List Char}
    {first : Char}
    (trimmed : Text.trim line = first :: rest)
    (notComment : first ≠ '#')
    (notOpening : first ≠ '[') :
    ofText line = .continuation (first :: rest) := by
  unfold ofText
  split
  · rename_i isBlank
    cases trimmed.symm.trans isBlank
  · rename_i isComment
    cases trimmed.symm.trans isComment
    exact absurd rfl notComment
  · rename_i isOpening
    cases trimmed.symm.trans isOpening
    exact absurd rfl notOpening
  · rw [trimmed]

end PhysicalLine

namespace LogicalLine.Joining

theorem ofLines_cons
    (first : PhysicalLine)
    (rest : List PhysicalLine) :
    ofLines (first :: rest) = prepend first (ofLines rest) :=
  rfl

theorem pending_ofLines
    {lines : List PhysicalLine}
    (fresh : ∀ text, lines.head? ≠ some (.continuation text)) :
    (ofLines lines).pending = [] := by
  cases lines with
  | nil =>
      rfl
  | cons first rest =>
      cases first with
      | blank => rfl
      | comment body => rfl
      | opening text => rfl
      | continuation text => exact absurd rfl (fresh text)

/-- Lines in front of a fresh start are joined by themselves. -/
theorem ofLines_append
    {earlier later : List PhysicalLine}
    (fresh : (ofLines later).pending = []) :
    ofLines (earlier ++ later) =
      ⟨(ofLines earlier).pending,
        (ofLines earlier).lines ++ (ofLines later).close⟩ := by
  induction earlier with
  | nil =>
      have nothing : ofLines [] = ⟨[], []⟩ := rfl
      rw [List.nil_append, nothing, List.nil_append, close, if_pos fresh,
        ← fresh]
  | cons first rest inductionHypothesis =>
      rw [List.cons_append, ofLines_cons, inductionHypothesis, ofLines_cons]
      cases first with
      | blank =>
          simp only [prepend, close]
          split <;> rfl
      | comment body =>
          simp only [prepend, close]
          split <;> rfl
      | opening text =>
          rfl
      | continuation text =>
          rfl

theorem close_ofLines_append
    (earlier : List PhysicalLine)
    {later : List PhysicalLine}
    (fresh : (ofLines later).pending = []) :
    (ofLines (earlier ++ later)).close =
      (ofLines earlier).close ++ (ofLines later).close := by
  rw [ofLines_append fresh, close]
  conv => rhs; rw [close]
  split <;> rfl

end LogicalLine.Joining

namespace Reading

/-- The reading of physical lines. -/
def ofPhysicalLines (lines : List PhysicalLine) : Reading :=
  let texts :=
    (LogicalLine.Joining.ofLines lines).close.filterMap LogicalLine.text?
  { document :=
      { statements := texts.filterMap Statement.ofLine?
        comments := lines.filterMap PhysicalLine.comment? }
    skipped := texts.filter fun line => (Statement.ofLine? line).isNone }

/-- All that one reading found, and then all that another found. -/
def append (earlier later : Reading) : Reading where
  document :=
    { statements :=
        earlier.document.statements ++ later.document.statements
      comments := earlier.document.comments ++ later.document.comments }
  skipped := earlier.skipped ++ later.skipped

theorem ofPhysicalLines_append
    {earlier later : List PhysicalLine}
    (fresh : ∀ text, later.head? ≠ some (.continuation text)) :
    ofPhysicalLines (earlier ++ later) =
      (ofPhysicalLines earlier).append (ofPhysicalLines later) := by
  have joined :=
    LogicalLine.Joining.close_ofLines_append earlier
      (LogicalLine.Joining.pending_ofLines fresh)
  simp only [ofPhysicalLines, append, joined, List.filterMap_append,
    List.filter_append]

/-- A blank line at the end says nothing. -/
theorem ofPhysicalLines_concat_blank (lines : List PhysicalLine) :
    ofPhysicalLines (lines ++ [.blank]) = ofPhysicalLines lines := by
  have nothing : ofPhysicalLines [.blank] = ⟨⟨[], []⟩, []⟩ := rfl
  rw [ofPhysicalLines_append (by simp), nothing]
  simp [append]

/-- The lines between the line feeds of a text, behind its byte-order mark. -/
def linesOf (text : List Char) : List PhysicalLine :=
  (Text.pieces '\n' (Text.withoutMark text)).map PhysicalLine.ofText

/-- It makes no difference that the text behind a last line feed is no line. -/
theorem ofText_eq_ofPhysicalLines (text : String) :
    ofText text = ofPhysicalLines (linesOf text.toList) := by
  have reading :
      ofText text =
        ofPhysicalLines
          ((Text.physicalLines (Text.withoutMark text.toList)).map
            PhysicalLine.ofText) :=
    rfl
  rw [reading, linesOf, Text.physicalLines]
  split
  · rename_i ended
    obtain ⟨earlier, split⟩ := List.getLast?_eq_some_iff.mp ended
    have lastLine : PhysicalLine.ofText [] = .blank := rfl
    rw [split, List.dropLast_concat, List.map_append, List.map_singleton,
      lastLine, ofPhysicalLines_concat_blank]
  · rfl

theorem linesOf_append_lineFeed
    (first : List Char)
    {second : List Char}
    (unmarked : second.head? ≠ some '\uFEFF') :
    linesOf (first ++ '\n' :: second) = linesOf first ++ linesOf second := by
  have front :
      Text.withoutMark (first ++ '\n' :: second) =
        Text.withoutMark first ++ '\n' :: second := by
    cases first with
    | nil =>
        exact Text.withoutMark_of_head?_ne (by simp)
    | cons character rest =>
        by_cases isMark : character = '\uFEFF'
        · subst isMark
          rfl
        · rw [Text.withoutMark_of_head?_ne (by simpa using isMark),
            Text.withoutMark_of_head?_ne (by simpa using isMark)]
  rw [linesOf, front, Text.pieces_append_cons, List.map_append, linesOf,
    linesOf, Text.withoutMark_of_head?_ne unmarked]

private theorem head?_pieces
    {text line : List Char}
    (isFirst : (Text.pieces '\n' text).head? = some line) :
    line = [] ∨ (Text.physicalLines text).head? = some line := by
  simp only [Text.physicalLines]
  split
  · rename_i ended
    obtain ⟨earlier, split⟩ := List.getLast?_eq_some_iff.mp ended
    rw [split, List.dropLast_concat]
    rw [split] at isFirst
    cases earlier with
    | nil =>
        exact Or.inl (by simpa using isFirst.symm)
    | cons head rest =>
        exact Or.inr (by simpa using isFirst)
  · exact Or.inr isFirst

/-- A blank line, a comment and a line that opens a statement continue nothing. -/
theorem ofText_ne_continuation
    {line : List Char}
    (fresh :
      Text.trim line = [] ∨
        (Text.trim line).head? = some '[' ∨
        (Text.trim line).head? = some '#')
    (text : List Char) :
    PhysicalLine.ofText line ≠ .continuation text := by
  unfold PhysicalLine.ofText
  split
  · simp
  · simp
  · simp
  · rename_i notBlank notComment notOpening
    rcases fresh with isBlank | isOpening | isComment
    · exact absurd isBlank notBlank
    · obtain ⟨rest, split⟩ := List.head?_eq_some_iff.mp isOpening
      exact absurd split (notOpening rest)
    · obtain ⟨rest, split⟩ := List.head?_eq_some_iff.mp isComment
      exact absurd split (notComment rest)

/--
A text behind a line feed is read by itself if its first line continues nothing:
its statements, comments and skipped lines follow those of the text before.
-/
theorem ofText_append_lineFeed
    {first second : String}
    (unmarked : second.toList.head? ≠ some '\uFEFF')
    (fresh :
      ∀ line,
        (Text.physicalLines second.toList).head? = some line →
        Text.trim line = [] ∨
          (Text.trim line).head? = some '[' ∨
          (Text.trim line).head? = some '#') :
    (ofText (first ++ "\n" ++ second)).document.statements =
        (ofText first).document.statements ++
          (ofText second).document.statements ∧
      (ofText (first ++ "\n" ++ second)).document.comments =
        (ofText first).document.comments ++
          (ofText second).document.comments ∧
      (ofText (first ++ "\n" ++ second)).skipped =
        (ofText first).skipped ++ (ofText second).skipped := by
  have text :
      (first ++ "\n" ++ second).toList =
        first.toList ++ '\n' :: second.toList := by
    simp
  have startsFresh
      (continued : List Char) :
      (linesOf second.toList).head? ≠ some (.continuation continued) := by
    intro isFirst
    rw [linesOf, Text.withoutMark_of_head?_ne unmarked, List.head?_map,
      Option.map_eq_some_iff] at isFirst
    obtain ⟨line, isLine, continues⟩ := isFirst
    refine ofText_ne_continuation ?_ continued continues
    rcases head?_pieces isLine with isEmpty | isPhysical
    · subst isEmpty
      exact Or.inl rfl
    · exact fresh line isPhysical
  have reading :
      ofText (first ++ "\n" ++ second) =
        (ofText first).append (ofText second) := by
    rw [ofText_eq_ofPhysicalLines, text,
      linesOf_append_lineFeed first.toList unmarked,
      ofPhysicalLines_append startsFresh, ← ofText_eq_ofPhysicalLines,
      ← ofText_eq_ofPhysicalLines]
  rw [reading]
  exact ⟨rfl, rfl, rfl⟩

/-- A comment ends the statement before it, which is continued on a second line. -/
theorem ofText_append_lineFeed_comment :
    (ofText ("[a] -> [b]\r\n ::mod(k=1)" ++ "\n" ++ " # c\nd")).document.statements =
        (ofText "[a] -> [b]\r\n ::mod(k=1)").document.statements ++
          (ofText " # c\nd").document.statements ∧
      (ofText ("[a] -> [b]\r\n ::mod(k=1)" ++ "\n" ++ " # c\nd")).document.comments =
        (ofText "[a] -> [b]\r\n ::mod(k=1)").document.comments ++
          (ofText " # c\nd").document.comments ∧
      (ofText ("[a] -> [b]\r\n ::mod(k=1)" ++ "\n" ++ " # c\nd")).skipped =
        (ofText "[a] -> [b]\r\n ::mod(k=1)").skipped ++
          (ofText " # c\nd").skipped := by
  refine ofText_append_lineFeed (by decide) ?_
  intro line isFirst
  have isComment :
      (Text.physicalLines " # c\nd".toList).head? = some [' ', '#', ' ', 'c'] := by
    decide
  rw [isComment, Option.some.injEq] at isFirst
  subst isFirst
  exact Or.inr (Or.inr (by decide))

end Reading

end AnchorScript
