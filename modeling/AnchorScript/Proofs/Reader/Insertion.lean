import AnchorScript.Proofs.Reader.Concatenation
import Mathlib.Data.List.TakeWhile

namespace AnchorScript

/-!
# A line between two texts

A line that opens a statement, put between two texts, is read by itself when the
second text does not continue it. The line is read trimmed; its anchors are the
same with and without the blanks around it.
-/

namespace Reader

private theorem bracketed?_cons_of_ne
    {first : Char}
    (different : first ≠ '[')
    (rest : List Char) :
    bracketed? (first :: rest) = none := by
  unfold bracketed?
  split
  · rename_i opens
    exact absurd (List.cons.inj opens).1 different
  · rfl

section Blanks

variable
  {blanks : List Char}
  (areBlank : ∀ character ∈ blanks, Text.isBlank character = true)

include areBlank

private theorem not_mem_blanks
    {character : Char}
    (notBlank : Text.isBlank character = false) :
    character ∉ blanks := by
  intro member
  exact absurd rfl (Text.ne_of_isBlank (areBlank _ member) notBlank)

/-- Blanks behind a bracketed text are behind it when it was read. -/
theorem bracketed?_append_blanks (text : List Char) :
    bracketed? (text ++ blanks) =
      (bracketed? text).map fun found => (found.1, found.2 ++ blanks) := by
  cases text with
  | nil =>
      cases blanks with
      | nil =>
          rfl
      | cons blank rest =>
          have isBlank := areBlank blank List.mem_cons_self
          exact bracketed?_cons_of_ne
            (Text.ne_of_isBlank isBlank (by decide)) rest
  | cons first rest =>
      by_cases opens : first = '['
      · subst opens
        have absent : ']' ∉ blanks := not_mem_blanks areBlank (by decide)
        simp only [List.cons_append, bracketed?,
          Text.cut?_append_of_not_mem rest absent]
        cases Text.cut? ']' rest with
        | none => rfl
        | some found =>
            obtain ⟨inner, after⟩ := found
            cases inner with
            | nil => rfl
            | cons head tail => rfl
      · rw [List.cons_append, bracketed?_cons_of_ne opens,
          bracketed?_cons_of_ne opens, Option.map_none]

/-- Blanks behind an arrow are behind it when it was read. -/
theorem afterArrow?_append_blanks (text : List Char) :
    afterArrow? (text ++ blanks) =
      (afterArrow? text).map (· ++ blanks) := by
  have noDash : '-' ∉ blanks := not_mem_blanks areBlank (by decide)
  have noTip : '>' ∉ blanks := not_mem_blanks areBlank (by decide)
  have noArrow : '→' ∉ blanks := not_mem_blanks areBlank (by decide)
  fun_cases afterArrow? text with
  | case1 rest =>
      rfl
  | case2 rest =>
      rfl
  | case3 _ notDashed notArrow =>
      -- No part of an arrow can be made up of the blanks.
      rw [Option.map_none]
      unfold afterArrow?
      split
      · rename_i rest shape
        cases text with
        | nil =>
            rw [List.nil_append] at shape
            exact absurd (shape ▸ List.mem_cons_self) noDash
        | cons dash others =>
            simp only [List.cons_append, List.cons.injEq] at shape
            obtain ⟨isDash, shape⟩ := shape
            cases others with
            | nil =>
                rw [List.nil_append] at shape
                exact absurd (shape ▸ List.mem_cons_self) noTip
            | cons tip others =>
                simp only [List.cons_append, List.cons.injEq] at shape
                exact absurd (by rw [isDash, shape.1]) (notDashed others)
      · rename_i rest shape
        cases text with
        | nil =>
            rw [List.nil_append] at shape
            exact absurd (shape ▸ List.mem_cons_self) noArrow
        | cons arrow others =>
            simp only [List.cons_append, List.cons.injEq] at shape
            exact absurd (by rw [shape.1]) (notArrow others)
      · rfl

/-- An arrow form at the front does not depend on blanks at the end. -/
theorem arrowHere?_append_blanks (text : List Char) :
    arrowHere? (text ++ blanks) = arrowHere? text := by
  unfold arrowHere?
  rw [bracketed?_append_blanks areBlank]
  cases bracketed? text with
  | none =>
      rfl
  | some source =>
      obtain ⟨behindSource, areBlank, trimmed⟩ :=
        Text.exists_blanks_trimStart_append source.2 areBlank
      simp only [Option.map_some, trimmed,
        afterArrow?_append_blanks areBlank]
      cases afterArrow? (Text.trimStart source.2) with
      | none =>
          rfl
      | some beforeTarget =>
          obtain ⟨behindArrow, areBlank, trimmed⟩ :=
            Text.exists_blanks_trimStart_append beforeTarget areBlank
          simp only [Option.map_some, trimmed,
            bracketed?_append_blanks areBlank]
          cases bracketed? (Text.trimStart beforeTarget) <;> rfl

theorem arrow?_blanks_append (text : List Char) :
    arrow? (blanks ++ text) = arrow? text := by
  induction blanks with
  | nil =>
      rfl
  | cons blank rest inductionHypothesis =>
      obtain ⟨isBlank, restBlank⟩ := List.forall_mem_cons.mp areBlank
      have notHere : arrowHere? (blank :: (rest ++ text)) = none := by
        have notOpening : blank ≠ '[' :=
          Text.ne_of_isBlank isBlank (by decide)
        simp only [arrowHere?, bracketed?_cons_of_ne notOpening]
      rw [List.cons_append, arrow?, notHere]
      exact inductionHypothesis restBlank

theorem arrow?_append_blanks (text : List Char) :
    arrow? (text ++ blanks) = arrow? text := by
  induction text with
  | nil =>
      simpa using arrow?_blanks_append areBlank []
  | cons first rest inductionHypothesis =>
      have here := arrowHere?_append_blanks areBlank (first :: rest)
      rw [List.cons_append] at here ⊢
      rw [arrow?, here, inductionHypothesis, arrow?]

end Blanks

/-- Blanks around a line do not change which arrow form is found on it. -/
theorem arrow?_trim (line : List Char) :
    arrow? (Text.trim line) = arrow? line := by
  obtain ⟨blanks, areBlank, split⟩ :=
    Text.exists_blanks_trimEnd (Text.trimStart line)
  calc
    arrow? (Text.trim line)
        = arrow? (Text.trim line ++ blanks) :=
          (arrow?_append_blanks areBlank _).symm
    _ = arrow? (Text.trimStart line) := by
          rw [Text.trim, ← split]
    _ = arrow? (line.takeWhile Text.isBlank ++ Text.trimStart line) :=
          (arrow?_blanks_append
            (List.all_eq_true.mp List.all_takeWhile) _).symm
    _ = arrow? line := by
          rw [Text.trimStart, List.takeWhile_append_dropWhile]

end Reader

/-- A line and the line without the blanks around it are statements with the same anchors. -/
theorem Statement.exists_ofLine?_of_trim
    {line : String}
    {statement : Statement}
    (found :
      ofLine? (String.ofList (Text.trim line.toList)) = some statement) :
    ∃ untrimmed,
      ofLine? line = some untrimmed ∧
        untrimmed.source = statement.source ∧
        untrimmed.target = statement.target := by
  obtain ⟨ends, foundEnds, rfl⟩ := Option.map_eq_some_iff.mp found
  rw [String.toList_ofList, Reader.arrow?_trim] at foundEnds
  refine ⟨_, Option.map_eq_some_iff.mpr ⟨ends, foundEnds, rfl⟩, rfl, rfl⟩

namespace Text

/-- The first line of a text, without the line feed that ends it. -/
def firstLine (text : List Char) : List Char :=
  text.takeWhile (· ≠ '\n')

/-- The text starts with a blank line, with a line that opens a statement, or with a comment. -/
def StartsAnew (text : String) : Prop :=
  trim (firstLine text.toList) = [] ∨
    (trim (firstLine text.toList)).head? = some '[' ∨
    (trim (firstLine text.toList)).head? = some '#'

theorem firstLine_append
    {line : List Char}
    (unbroken : '\n' ∉ line)
    (rest : List Char) :
    firstLine (line ++ '\n' :: rest) = line := by
  apply takeWhile_append_of_stop
  · intro character member
    simpa using ne_of_mem_of_not_mem member unbroken
  · simp

/-- The first piece of a text is its first line. -/
theorem head?_pieces_eq_firstLine (text : List Char) :
    (pieces '\n' text).head? = some (firstLine text) := by
  by_cases isBroken : '\n' ∈ text
  · obtain ⟨line, rest, split, unbroken⟩ :=
      List.eq_append_cons_of_mem isBroken
    rw [split, pieces_append_mark unbroken, firstLine_append unbroken,
      List.head?_cons]
  · have whole : firstLine text = text := by
      rw [firstLine, List.takeWhile_eq_self_iff]
      intro character member
      simpa using ne_of_mem_of_not_mem member isBroken
    rw [pieces_of_not_mem isBroken, whole, List.head?_cons]

/-- A byte-order mark is no start anew. -/
theorem StartsAnew.unmarked
    {text : String}
    (anew : StartsAnew text) :
    text.toList.head? ≠ some '\uFEFF' := by
  intro isMark
  have isFirst : (firstLine text.toList).head? = some '\uFEFF' := by
    obtain ⟨rest, split⟩ := List.head?_eq_some_iff.mp isMark
    rw [split, firstLine, List.takeWhile_cons_of_pos (by decide),
      List.head?_cons]
  have trimmed := head?_trim isFirst (by decide)
  rcases anew with isBlank | opens | isComment
  · simp [isBlank] at trimmed
  · simp [opens] at trimmed
  · simp [isComment] at trimmed

end Text

namespace Reading

/-- What starts anew behind a line feed is read by itself. -/
theorem ofText_append_of_startsAnew
    (first : String)
    {second : String}
    (anew : Text.StartsAnew second) :
    ofText (first ++ "\n" ++ second) =
      (ofText first).append (ofText second) := by
  have text :
      (first ++ "\n" ++ second).toList =
        first.toList ++ '\n' :: second.toList := by
    simp
  have fresh (continued : List Char) :
      (linesOf second.toList).head? ≠ some (.continuation continued) := by
    rw [linesOf, Text.withoutMark_of_head?_ne anew.unmarked, List.head?_map,
      Text.head?_pieces_eq_firstLine, Option.map_some, Ne, Option.some.injEq]
    exact ofText_ne_continuation anew continued
  rw [ofText_eq_ofPhysicalLines, text,
    linesOf_append_lineFeed first.toList anew.unmarked,
    ofPhysicalLines_append fresh, ← ofText_eq_ofPhysicalLines,
    ← ofText_eq_ofPhysicalLines]

/-- A line that opens a statement is at most this statement. -/
theorem statements_ofText_line
    {line : String}
    (unbroken : '\n' ∉ line.toList)
    (opens : (Text.trim line.toList).head? = some '[') :
    (ofText line).document.statements =
      (Statement.ofLine?
        (String.ofList (Text.trim line.toList))).toList := by
  obtain ⟨rest, trimmed⟩ := List.head?_eq_some_iff.mp opens
  have isOpening :
      PhysicalLine.ofText line.toList =
        .opening (Text.trim line.toList) := by
    simp only [PhysicalLine.ofText, trimmed]
  have single : linesOf line.toList = [.opening (Text.trim line.toList)] := by
    have unmarked : line.toList.head? ≠ some '\uFEFF' := by
      intro isMark
      rw [Text.head?_trim isMark (by decide)] at opens
      cases opens
    rw [linesOf, Text.withoutMark_of_head?_ne unmarked,
      Text.pieces_of_not_mem unbroken, List.map_singleton, isOpening]
  rw [ofText_eq_ofPhysicalLines, single]
  cases found :
      Statement.ofLine? (String.ofList (Text.trim line.toList)) <;>
    simp [ofPhysicalLines, LogicalLine.Joining.ofLines,
      LogicalLine.Joining.prepend, LogicalLine.Joining.close,
      LogicalLine.ofRun, LogicalLine.text?, found]

/-- A line between two texts adds at most its own statement, between theirs. -/
theorem statements_ofText_insert
    (first : String)
    {second line : String}
    (anew : Text.StartsAnew second)
    (unbroken : '\n' ∉ line.toList)
    (opens : (Text.trim line.toList).head? = some '[') :
    (ofText (first ++ "\n" ++ line ++ "\n" ++ second)).document.statements =
      (ofText first).document.statements ++
        ((Statement.ofLine?
            (String.ofList (Text.trim line.toList))).toList ++
          (ofText second).document.statements) := by
  have lineAnew : Text.StartsAnew (line ++ "\n" ++ second) := by
    have isFirst :
        Text.firstLine (line ++ "\n" ++ second).toList = line.toList := by
      rw [← Text.firstLine_append unbroken second.toList]
      simp
    refine Or.inr (Or.inl ?_)
    rw [isFirst]
    exact opens
  have grouped :
      first ++ "\n" ++ line ++ "\n" ++ second =
        first ++ "\n" ++ (line ++ "\n" ++ second) := by
    simp only [String.append_assoc]
  rw [grouped, ofText_append_of_startsAnew first lineAnew,
    ofText_append_of_startsAnew line anew]
  simp only [append, statements_ofText_line unbroken opens]

end Reading

end AnchorScript
