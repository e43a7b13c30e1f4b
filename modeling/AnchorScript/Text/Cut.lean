namespace AnchorScript.Text

/-!
# Cutting text at a mark

The delimiters of the language are single characters, and a delimited piece
ends at the first one. `cut?` takes the piece before the first mark and the
text after it; `pieces` cuts at every mark; `physicalLines` cuts at line feeds.
-/

/-- The text before the first `mark` and the text after it, if there is a mark. -/
def cut?
    (mark : Char)
    (text : List Char) :
    Option (List Char × List Char) :=
  match text.dropWhile (· ≠ mark) with
  | [] => none
  | _ :: after => some (text.takeWhile (· ≠ mark), after)

/-- A cut exists exactly at a mark with no mark before it. -/
theorem cut?_eq_some_iff
    {mark : Char}
    {text before after : List Char} :
    cut? mark text = some (before, after) ↔
      text = before ++ mark :: after ∧ mark ∉ before := by
  induction text generalizing before with
  | nil =>
      simp [cut?]
  | cons first rest inductionHypothesis =>
      by_cases isMark : first = mark
      · subst isMark
        constructor
        · intro found
          simp [cut?] at found
          obtain ⟨emptyBefore, sameAfter⟩ := found
          subst emptyBefore sameAfter
          simp
        · rintro ⟨split, absent⟩
          cases before with
          | nil =>
              simp at split
              simp [cut?, split]
          | cons head tail =>
              simp only [List.cons_append, List.cons.injEq] at split
              exact absurd (by simp [split.1]) absent
      · have step :
            cut? mark (first :: rest) =
              (cut? mark rest).map
                (fun found => (first :: found.1, found.2)) := by
          simp only [cut?, List.dropWhile_cons, List.takeWhile_cons,
            isMark, ne_eq, not_false_eq_true, decide_true, if_true]
          split <;> simp_all
        rw [step]
        constructor
        · intro found
          simp only [Option.map_eq_some_iff, Prod.mk.injEq] at found
          obtain ⟨⟨tail, rest'⟩, foundTail, sameBefore, sameAfter⟩ := found
          subst sameBefore sameAfter
          obtain ⟨split, absent⟩ := inductionHypothesis.mp foundTail
          refine ⟨by simp [split], ?_⟩
          simp only [List.mem_cons, not_or]
          exact ⟨fun same => isMark same.symm, absent⟩
        · rintro ⟨split, absent⟩
          cases before with
          | nil =>
              simp only [List.nil_append, List.cons.injEq] at split
              exact absurd split.1 isMark
          | cons head tail =>
              simp only [List.cons_append, List.cons.injEq] at split
              simp only [List.mem_cons, not_or] at absent
              have foundTail :=
                inductionHypothesis.mpr ⟨split.2, absent.2⟩
              simp [foundTail, split.1]

/-- What is left after a cut is shorter than the text. -/
theorem length_lt_of_cut?
    {mark : Char}
    {text before after : List Char}
    (found : cut? mark text = some (before, after)) :
    after.length < text.length := by
  obtain ⟨split, _⟩ := cut?_eq_some_iff.mp found
  simp [split]
  omega

/-- Put one more character in front of the first piece. -/
def extendFirst
    (character : Char) :
    List (List Char) → List (List Char)
  | [] => [[character]]
  | piece :: others => (character :: piece) :: others

/-- The pieces between the marks; a text without a mark is one piece. -/
def pieces
    (mark : Char)
    (text : List Char) :
    List (List Char) :=
  text.foldr
    (fun character found =>
      if character = mark then [] :: found
      else extendFirst character found)
    [[]]

/--
The lines of a text. A line feed ends its line, so nothing stands after a last
line feed; a carriage return before a line feed stays with its line.
-/
def physicalLines (text : List Char) : List (List Char) :=
  let found := pieces '\n' text
  if found.getLast? = some [] then found.dropLast else found

end AnchorScript.Text
