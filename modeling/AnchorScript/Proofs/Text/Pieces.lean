import AnchorScript.Text.Cut

namespace AnchorScript.Text

/-!
# Pieces of a text

Lines that are put together with a mark between them come apart again at the
marks, provided that no line contains the mark itself.
-/

/-- A piece that ends at the first mark is cut off there. -/
theorem cut?_append
    {mark : Char}
    {before : List Char}
    (absent : mark ∉ before)
    (after : List Char) :
    cut? mark (before ++ mark :: after) = some (before, after) :=
  cut?_eq_some_iff.mpr ⟨rfl, absent⟩

/-- There is no cut exactly where there is no mark. -/
theorem cut?_eq_none_iff
    {mark : Char}
    {text : List Char} :
    cut? mark text = none ↔ mark ∉ text := by
  constructor
  · intro notFound member
    obtain ⟨before, after, split, absent⟩ :=
      List.eq_append_cons_of_mem member
    rw [split, cut?_append absent] at notFound
    cases notFound
  · intro absent
    cases found : cut? mark text with
    | none =>
        rfl
    | some pair =>
        have split := (cut?_eq_some_iff.mp found).1
        rw [split] at absent
        exact absurd (by simp) absent

/-- What stands behind a text and has no mark itself stands behind the cut. -/
theorem cut?_append_of_not_mem
    {mark : Char}
    (text : List Char)
    {behind : List Char}
    (absent : mark ∉ behind) :
    cut? mark (text ++ behind) =
      (cut? mark text).map fun found => (found.1, found.2 ++ behind) := by
  cases found : cut? mark text with
  | none =>
      have notInText := cut?_eq_none_iff.mp found
      rw [Option.map_none, cut?_eq_none_iff, List.mem_append, not_or]
      exact ⟨notInText, absent⟩
  | some pair =>
      obtain ⟨split, notBefore⟩ := cut?_eq_some_iff.mp found
      rw [Option.map_some, cut?_eq_some_iff]
      exact ⟨by rw [split]; simp, notBefore⟩

theorem pieces_mark_cons
    (mark : Char)
    (rest : List Char) :
    pieces mark (mark :: rest) = [] :: pieces mark rest := by
  simp only [pieces, List.foldr_cons, if_true]

/-- Any other character belongs to the first piece. -/
theorem pieces_cons_of_ne
    {mark first : Char}
    (different : first ≠ mark)
    (rest : List Char) :
    pieces mark (first :: rest) = extendFirst first (pieces mark rest) := by
  simp only [pieces, List.foldr_cons, different, if_false]

/-- Cutting at every mark is the splitting of the library. -/
theorem pieces_eq_splitOn
    (mark : Char)
    (text : List Char) :
    pieces mark text = text.splitOn mark := by
  induction text with
  | nil =>
      rfl
  | cons first rest inductionHypothesis =>
      rw [List.splitOn_cons_eq_if_modifyHead]
      by_cases isMark : first = mark
      · rw [isMark, pieces_mark_cons, beq_self_eq_true, if_pos rfl,
          inductionHypothesis]
      · obtain ⟨piece, others, shape⟩ :=
          List.exists_cons_of_ne_nil (List.splitOn_ne_nil mark rest)
        rw [pieces_cons_of_ne isMark, if_neg (by simpa using isMark),
          inductionHypothesis, shape]
        rfl

theorem pieces_ne_nil
    (mark : Char)
    (text : List Char) :
    pieces mark text ≠ [] := by
  rw [pieces_eq_splitOn]
  exact List.splitOn_ne_nil mark text

/-- The pieces of a text with a mark in it are those before and those after the mark. -/
theorem pieces_append_cons
    (mark : Char)
    (before after : List Char) :
    pieces mark (before ++ mark :: after) =
      pieces mark before ++ pieces mark after := by
  simp only [pieces_eq_splitOn, List.splitOn_append_cons_self]

/-- A text without the mark is one piece. -/
theorem pieces_of_not_mem
    {mark : Char}
    {piece : List Char}
    (absent : mark ∉ piece) :
    pieces mark piece = [piece] := by
  rw [pieces_eq_splitOn, List.splitOn_eq_singleton absent]

/-- A text that goes on after its first mark has one piece before it. -/
theorem pieces_append_mark
    {mark : Char}
    {piece : List Char}
    (absent : mark ∉ piece)
    (rest : List Char) :
    pieces mark (piece ++ mark :: rest) = piece :: pieces mark rest := by
  rw [pieces_append_cons, pieces_of_not_mem absent, List.singleton_append]

/-- Parts that are joined by the mark are the pieces of the text. -/
theorem pieces_intercalate
    {mark : Char}
    {parts : List (List Char)}
    (nonempty : parts ≠ [])
    (absent : ∀ part ∈ parts, mark ∉ part) :
    pieces mark ([mark].intercalate parts) = parts := by
  rw [pieces_eq_splitOn, List.splitOn_intercalate mark absent nonempty]

/-- The pieces of a text give the text back when they are joined by the mark. -/
theorem intercalate_pieces
    (mark : Char)
    (text : List Char) :
    [mark].intercalate (pieces mark text) = text := by
  rw [pieces_eq_splitOn, List.intercalate_splitOn]

/-- Joined lines start as the first of them, or with what joins them. -/
theorem head?_intercalate_cons
    {character separator : Char}
    (different : separator ≠ character)
    (first : List Char)
    (rest : List (List Char)) :
    ([separator].intercalate (first :: rest)).head? = some character ↔
      first.head? = some character := by
  cases first with
  | nil =>
      cases rest with
      | nil => simp
      | cons next others => simp [List.intercalate_cons_cons, different]
  | cons head tail =>
      cases rest with
      | nil => simp
      | cons next others => simp [List.intercalate_cons_cons]

/-- Joined lines end as the last of them. -/
theorem getLast?_intercalate
    {character : Char}
    {separator last : List Char}
    {lines : List (List Char)}
    (isLast : lines.getLast? = some last)
    (ends : last.getLast? = some character) :
    (separator.intercalate lines).getLast? = some character := by
  induction lines with
  | nil =>
      cases isLast
  | cons line rest inductionHypothesis =>
      by_cases isEnd : rest = []
      · subst isEnd
        rw [List.getLast?_singleton, Option.some.injEq] at isLast
        rw [List.intercalate_singleton, isLast, ends]
      · have restLast : rest.getLast? = some last := by
          rwa [List.getLast?_cons_of_ne_nil isEnd] at isLast
        rw [List.intercalate_cons_of_ne_nil isEnd, List.getLast?_append,
          inductionHypothesis restLast, Option.some_or]

/-- No piece contains the mark. -/
theorem not_mem_of_mem_pieces
    {mark : Char}
    {text piece : List Char}
    (member : piece ∈ pieces mark text) :
    mark ∉ piece := by
  induction text generalizing piece with
  | nil =>
      rw [List.mem_singleton.mp member]
      exact List.not_mem_nil
  | cons first rest inductionHypothesis =>
      by_cases isMark : first = mark
      · subst isMark
        rw [pieces_mark_cons] at member
        rcases List.mem_cons.mp member with isEmpty | inRest
        · exact isEmpty ▸ List.not_mem_nil
        · exact inductionHypothesis inRest
      · obtain ⟨head, others, shape⟩ :=
          List.exists_cons_of_ne_nil (pieces_ne_nil mark rest)
        rw [pieces_cons_of_ne isMark, shape, extendFirst] at member
        rw [shape] at inductionHypothesis
        rcases List.mem_cons.mp member with isFirst | inOthers
        · rw [isFirst, List.mem_cons, not_or]
          exact
            ⟨Ne.symm isMark, inductionHypothesis List.mem_cons_self⟩
        · exact inductionHypothesis (List.mem_cons_of_mem _ inOthers)

/-- No line contains a line feed. -/
theorem lineFeed_not_mem_of_mem_physicalLines
    {text line : List Char}
    (member : line ∈ physicalLines text) :
    '\n' ∉ line := by
  unfold physicalLines at member
  simp only at member
  split at member
  · exact not_mem_of_mem_pieces (List.dropLast_subset _ member)
  · exact not_mem_of_mem_pieces member

/-- A text has given pieces when it is these pieces joined by the mark. -/
theorem pieces_eq_iff
    {mark : Char}
    {text : List Char}
    {parts : List (List Char)}
    (nonempty : parts ≠ []) :
    pieces mark text = parts ↔
      text = [mark].intercalate parts ∧ ∀ part ∈ parts, mark ∉ part := by
  constructor
  · rintro rfl
    exact
      ⟨(intercalate_pieces mark text).symm,
        fun part => not_mem_of_mem_pieces⟩
  · rintro ⟨rfl, absent⟩
    exact pieces_intercalate nonempty absent

/-- What is neither in a part nor between two parts is not in the parts joined. -/
theorem not_mem_intercalate
    {character : Char}
    {separator : List Char}
    {parts : List (List Char)}
    (notBetween : character ∉ separator)
    (notInside : ∀ part ∈ parts, character ∉ part) :
    character ∉ separator.intercalate parts := by
  induction parts with
  | nil =>
      simp
  | cons part rest inductionHypothesis =>
      have notLater :=
        inductionHypothesis fun later member =>
          notInside later (List.mem_cons_of_mem _ member)
      have notHere := notInside part List.mem_cons_self
      by_cases isLast : rest = []
      · subst isLast
        rwa [List.intercalate_singleton]
      · rw [List.intercalate_cons_of_ne_nil isLast]
        simp only [List.mem_append, not_or]
        exact ⟨⟨notHere, notBetween⟩, notLater⟩

/--
Lines that are joined by line feeds are the lines of the text, if the last is
not empty.
-/
theorem physicalLines_intercalate
    {lines : List (List Char)}
    (nonempty : ∀ line ∈ lines, line ≠ [])
    (unbroken : ∀ line ∈ lines, '\n' ∉ line) :
    physicalLines (['\n'].intercalate lines) = lines := by
  by_cases noLines : lines = []
  · subst noLines
    rfl
  · have found := pieces_intercalate noLines unbroken
    have lastNonempty : lines.getLast? ≠ some [] := by
      intro isLast
      exact nonempty [] (List.mem_of_getLast? isLast) rfl
    simp only [physicalLines, found, lastNonempty, if_false]

/-- A line feed after the last line begins no line of its own. -/
theorem physicalLines_intercalate_ended
    {lines : List (List Char)}
    (unbroken : ∀ line ∈ lines, '\n' ∉ line) :
    physicalLines (['\n'].intercalate (lines ++ [[]])) = lines := by
  have found :
      pieces '\n' (['\n'].intercalate (lines ++ [[]])) = lines ++ [[]] := by
    refine pieces_intercalate (by simp) ?_
    intro line member
    rcases List.mem_append.mp member with inLines | isEnd
    · exact unbroken line inLines
    · simp [List.mem_singleton.mp isEnd]
  simp only [physicalLines, found, List.getLast?_concat,
    List.dropLast_concat, if_true]

end AnchorScript.Text
