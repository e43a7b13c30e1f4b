import AnchorScript.Proofs.Reader.SentenceReading
import Mathlib.Order.WellFounded

namespace AnchorScript

/-!
# Arrow forms on a line

What makes a line a statement, as data: two bracketed texts with an arrow
between them, and whatever else stands before and behind. The same line can be
taken apart in several ways, since a bracketed text may itself hold an opening
bracket and a line may hold several forms. The reader takes a form that has the
least text before it, and that settles the two ends.
-/

namespace Reader

/-- A text that may stand in brackets. -/
structure Enclosed where
  text : List Char
  nonempty : text ≠ []
  unclosed : ']' ∉ text

/-- A line taken apart around an arrow between two bracketed texts. -/
structure ArrowForm where
  before : List Char
  source : Enclosed
  beforeArrow : Sentence.Blanks
  arrow : Sentence.Arrow
  afterArrow : Sentence.Blanks
  target : Enclosed
  after : List Char

namespace ArrowForm

/-- The line from the first bracket on. -/
def body (form : ArrowForm) : List Char :=
  '[' :: (form.source.text ++ ']' :: (form.beforeArrow.text ++
    (form.arrow.text ++ (form.afterArrow.text ++
      '[' :: (form.target.text ++ ']' :: form.after)))))

/-- The whole line. -/
def text (form : ArrowForm) : List Char :=
  form.before ++ form.body

/-- No form of the text has less before it. -/
structure IsLeftmost
    (form : ArrowForm)
    (text : List Char) :
    Prop where
  text_eq : form.text = text
  least :
    ∀ other : ArrowForm, other.text = text →
      form.before.length ≤ other.before.length

/-- The form with one more character before it. -/
def behind (first : Char) (form : ArrowForm) : ArrowForm :=
  { form with before := first :: form.before }

theorem text_behind
    (first : Char)
    (form : ArrowForm) :
    (form.behind first).text = first :: form.text :=
  rfl

/-- Where there is a form, there is a leftmost one. -/
theorem exists_isLeftmost
    {form : ArrowForm}
    {text : List Char}
    (isText : form.text = text) :
    ∃ least : ArrowForm, least.IsLeftmost text := by
  have wellFounded :
      WellFounded fun one other : ArrowForm =>
        one.before.length < other.before.length :=
    (measure fun form : ArrowForm => form.before.length).wf
  obtain ⟨least, isForm, isLeast⟩ :=
    wellFounded.has_min {other | other.text = text} ⟨form, isText⟩
  exact ⟨least, isForm, fun other isOther => not_lt.mp (isLeast other isOther)⟩

end ArrowForm

/-! ## The form at the front -/

private theorem exists_blanks_trimStart (text : List Char) :
    ∃ blanks : Sentence.Blanks, text = blanks.text ++ Text.trimStart text := by
  refine ⟨⟨text.takeWhile Text.isBlank, fun character member => ?_⟩, ?_⟩
  · exact List.all_eq_true.mp List.all_takeWhile character member
  · exact List.takeWhile_append_dropWhile.symm

private theorem exists_arrow_of_afterArrow?
    {text after : List Char}
    (found : afterArrow? text = some after) :
    ∃ arrow : Sentence.Arrow, text = arrow.text ++ after := by
  unfold afterArrow? at found
  split at found
  · cases found
    exact ⟨.hyphenated, rfl⟩
  · cases found
    exact ⟨.drawn, rfl⟩
  · cases found

private theorem exists_enclosed_of_bracketed?
    {text inner after : List Char}
    (found : bracketed? text = some (inner, after)) :
    ∃ enclosed : Enclosed,
      enclosed.text = inner ∧ text = '[' :: (inner ++ ']' :: after) := by
  obtain ⟨split, nonempty, unclosed⟩ := eq_of_bracketed? found
  exact ⟨⟨inner, nonempty, unclosed⟩, rfl, by simpa using split⟩

/-- A form that starts the text is found there. -/
theorem arrowHere?_body (form : ArrowForm) :
    arrowHere? form.body = some (form.source.text, form.target.text) := by
  have target :
      Text.trimStart ('[' :: (form.target.text ++ ']' :: form.after)) =
        '[' :: (form.target.text ++ ']' :: form.after) :=
    Text.trimStart_cons (by decide) _
  simp only [arrowHere?, ArrowForm.body,
    bracketed?_of_unclosed form.source.nonempty form.source.unclosed,
    Text.trimStart_blanks_append form.beforeArrow.allBlank,
    Sentence.afterArrow?_text,
    Text.trimStart_blanks_append form.afterArrow.allBlank, target,
    bracketed?_of_unclosed form.target.nonempty form.target.unclosed]

/-- What is found at the front are the ends of a form that starts there. -/
theorem exists_body_of_arrowHere?
    {text source target : List Char}
    (found : arrowHere? text = some (source, target)) :
    ∃ form : ArrowForm,
      form.body = text ∧ form.source.text = source ∧
        form.target.text = target := by
  unfold arrowHere? at found
  split at found
  · cases found
  · rename_i first afterSource foundSource
    split at found
    · cases found
    · rename_i beforeTarget foundArrow
      split at found
      · cases found
      · rename_i second after foundTarget
        cases found
        obtain ⟨sourceText, isSource, sourceSplit⟩ :=
          exists_enclosed_of_bracketed? foundSource
        obtain ⟨targetText, isTarget, targetSplit⟩ :=
          exists_enclosed_of_bracketed? foundTarget
        obtain ⟨beforeArrow, beforeSplit⟩ :=
          exists_blanks_trimStart afterSource
        obtain ⟨arrow, arrowSplit⟩ := exists_arrow_of_afterArrow? foundArrow
        obtain ⟨afterArrow, afterSplit⟩ :=
          exists_blanks_trimStart beforeTarget
        refine
          ⟨⟨[], sourceText, beforeArrow, arrow, afterArrow, targetText, after⟩,
            ?_, isSource, isTarget⟩
        rw [sourceSplit, beforeSplit, arrowSplit, afterSplit, targetSplit]
        simp only [ArrowForm.body, isSource, isTarget]

/-! ## The leftmost form -/

/-- The ends that are found are those of a form on the line. -/
theorem exists_text_of_arrow?
    {text : List Char}
    {ends : List Char × List Char}
    (found : arrow? text = some ends) :
    ∃ form : ArrowForm, form.text = text := by
  induction text with
  | nil =>
      cases found
  | cons first rest inductionHypothesis =>
      simp only [arrow?] at found
      split at found
      · rename_i here foundHere
        obtain ⟨form, isBody, _⟩ := exists_body_of_arrowHere? foundHere
        exact ⟨{ form with before := [] }, isBody⟩
      · obtain ⟨form, isText⟩ := inductionHypothesis found
        exact ⟨form.behind first, by rw [ArrowForm.text_behind, isText]⟩

/-- The ends of a leftmost form are the ones that are found. -/
theorem arrow?_of_isLeftmost
    {form : ArrowForm}
    {text : List Char}
    (leftmost : form.IsLeftmost text) :
    arrow? text = some (form.source.text, form.target.text) := by
  obtain ⟨before, source, beforeArrow, arrow, afterArrow, target, after⟩ := form
  obtain ⟨isText, least⟩ := leftmost
  induction before generalizing text with
  | nil =>
      have here := arrowHere?_body
        ⟨[], source, beforeArrow, arrow, afterArrow, target, after⟩
      rw [← isText]
      simp only [ArrowForm.text, ArrowForm.body, List.nil_append] at here ⊢
      simp only [arrow?, here]
  | cons first before inductionHypothesis =>
      let form : ArrowForm :=
        ⟨before, source, beforeArrow, arrow, afterArrow, target, after⟩
      have isBehind : text = first :: form.text :=
        isText.symm.trans (ArrowForm.text_behind first form)
      have notHere : arrowHere? text = none := by
        rw [Option.eq_none_iff_forall_ne_some]
        rintro ⟨sourceText, targetText⟩ foundHere
        obtain ⟨other, isBody, _⟩ := exists_body_of_arrowHere? foundHere
        have least := least { other with before := [] } isBody
        exact absurd least (Nat.not_succ_le_zero _)
      have leastBehind :
          ∀ other : ArrowForm, other.text = form.text →
            before.length ≤ other.before.length := by
        intro other isOther
        have least := least (other.behind first)
          (by rw [ArrowForm.text_behind, isOther, isBehind])
        exact Nat.le_of_succ_le_succ least
      rw [isBehind] at notHere ⊢
      simp only [arrow?, notHere]
      exact inductionHypothesis rfl leastBehind

/-- All leftmost forms of a text have the same ends. -/
theorem ArrowForm.IsLeftmost.ends_eq
    {form other : ArrowForm}
    {text : List Char}
    (leftmost : form.IsLeftmost text)
    (otherLeftmost : other.IsLeftmost text) :
    other.source.text = form.source.text ∧
      other.target.text = form.target.text := by
  have same :=
    (arrow?_of_isLeftmost otherLeftmost).symm.trans
      (arrow?_of_isLeftmost leftmost)
  simpa using same

end Reader

/--
A line is a statement exactly when an arrow form stands on it, and its anchors
are then those of the form with the least text before it, which settles them.
-/
theorem Statement.ofLine?_leftmost (line : String) :
    ((Statement.ofLine? line).isSome ↔
        ∃ form : Reader.ArrowForm, form.text = line.toList) ∧
      ∀ statement, Statement.ofLine? line = some statement →
        ∃ form : Reader.ArrowForm,
          form.IsLeftmost line.toList ∧
            statement.source = Anchor.ofText form.source.text ∧
            statement.target = Anchor.ofText form.target.text ∧
            ∀ other : Reader.ArrowForm, other.IsLeftmost line.toList →
              other.source.text = form.source.text ∧
                other.target.text = form.target.text := by
  constructor
  · rw [Statement.ofLine?, Option.isSome_map, Option.isSome_iff_exists]
    constructor
    · rintro ⟨ends, found⟩
      exact Reader.exists_text_of_arrow? found
    · rintro ⟨form, isText⟩
      obtain ⟨least, leftmost⟩ := Reader.ArrowForm.exists_isLeftmost isText
      exact ⟨_, Reader.arrow?_of_isLeftmost leftmost⟩
  · intro statement isStatement
    obtain ⟨ends, found, rfl⟩ := Option.map_eq_some_iff.mp isStatement
    obtain ⟨form, isText⟩ := Reader.exists_text_of_arrow? found
    obtain ⟨least, leftmost⟩ := Reader.ArrowForm.exists_isLeftmost isText
    cases (Reader.arrow?_of_isLeftmost leftmost).symm.trans found
    exact
      ⟨least, leftmost, rfl, rfl, fun other otherLeftmost =>
        leftmost.ends_eq otherLeftmost⟩

-- A bracket that no arrow follows is passed over, and a second one inside is text.
example :
    Reader.arrow? "[A] [x [B]→ [y] -> [C]".toList =
      some ("x [B".toList, "y".toList) := by
  decide

end AnchorScript
