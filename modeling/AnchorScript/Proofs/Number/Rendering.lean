import AnchorScript.Proofs.Number.Scientific

namespace AnchorScript.Value

/-!
# Rendered numbers

A rendered number never reads as another number. Zeros and numbers of moderate
size read back as themselves, without the sign of a zero. All other numbers read
as the text that they were rendered as, and the finite ones among them can still
be told from it. So no two finite numbers that differ are rendered alike.
-/

/-- The zero that has no sign. -/
def unsignedZero : Binary64 :=
  Binary64.ofRank false 0

/-- The text of a value as characters, for a number. -/
theorem toList_render_number (number : Binary64) :
    (render (.number number)).toList = numberLayout.text number :=
  String.toList_ofList

/-- What is said of the text that a number is rendered as, and of reading it. -/
structure RendersFaithfully (number : Binary64) : Prop where
  zero :
    number.isZero = true →
      ofLiteral (render (.number number)).toList = .number unsignedZero ∧
        unsignedZero.agrees number = true
  moderate :
    IsModerate number →
      ofLiteral (render (.number number)).toList = .number number ∧
        number.agrees number = true
  otherwise :
    number.isZero = false →
      ¬IsModerate number →
        ofLiteral (render (.number number)).toList =
          .text (render (.number number))
  scientific :
    number.isFinite = true →
      number.isZero = false →
        ¬IsModerate number →
          ∃ numeral,
            Numeral.IsScientific
                (render (.number number)).toList numeral ∧
              Binary64.ofNumeral numeral = number
  injective :
    ∀ other : Binary64,
      number.isFinite = true →
        other.isFinite = true →
          render (.number number) = render (.number other) →
            number.agrees other = true

/-- A zero reads as the zero without a sign. -/
theorem ofLiteral_text_of_isZero
    {number : Binary64}
    (isZero : number.isZero = true) :
    ofLiteral (numberLayout.text number) = .number unsignedZero := by
  have rank : Binary64.rankOfDecimal ⟨0, 0⟩ = 0 :=
    Binary64.rankOfDecimal_of_coefficient_eq_zero rfl
  have read : Numeral.ofText? ['0'] = some ⟨false, ⟨0, 0⟩⟩ := rfl
  rw [text_of_isZero isZero, ofLiteral_of_numeral read, Binary64.ofNumeral,
    rank]
  rfl

/-- A number of moderate size reads as itself. -/
theorem ofLiteral_text_of_isPlainNumber
    {number : Binary64}
    (plain : isPlainNumber number = true) :
    ofLiteral (numberLayout.text number) = .number number := by
  obtain ⟨numeral, found, same⟩ := ofNumeral_of_isPlainNumber plain
  rw [ofLiteral_of_numeral found, same]

/-- A finite number of another size is written with a power of ten that gives it back. -/
theorem exists_isScientific_text
    {number : Binary64}
    (finite : number.isFinite = true)
    (notZero : number.isZero = false)
    (notPlain : isPlainNumber number = false) :
    ∃ numeral,
      Numeral.IsScientific (numberLayout.text number) numeral ∧
        Binary64.ofNumeral numeral = number := by
  have belowInfinity : number.rank < Binary64.infinityRank := by
    simpa [Binary64.isFinite] using finite
  have positive : 0 < number.rank := by
    simpa [Binary64.isZero, Nat.pos_iff_ne_zero] using notZero
  obtain ⟨nonempty, allDigits, rounds⟩ :=
    Digits.digits_ofDecimal (shortestDecimal_ne_zero positive belowInfinity)
  have written :
      numberLayout.text number =
        NumberLayout.signed number.negative
          (Digits.scientific ['+']
            (Digits.ofDecimal (Binary64.shortestDecimal number.rank))) := by
    have positional : numberLayout.isPositional = isPlainNumber := by
      simp only [numberLayout]
    have plusSign : numberLayout.plusSign = ['+'] := by
      simp only [numberLayout]
    simp only [text_of_isFinite positive belowInfinity,
      NumberLayout.magnitudeText, positional, notPlain, plusSign,
      Bool.false_eq_true, if_false]
  refine
    ⟨_, written ▸ Digits.isScientific_scientific nonempty allDigits _ _, ?_⟩
  rw [Binary64.ofNumeral]
  refine Eq.trans ?_ (Binary64.ofRank_rank number)
  exact congrArg (Binary64.ofRank number.negative)
    (rounds.trans (Binary64.rankOfDecimal_shortestDecimal belowInfinity))

/-- What is no finite number is written as a word. -/
theorem text_of_not_isFinite
    {number : Binary64}
    (notFinite : number.isFinite = false) :
    numberLayout.text number = "NaN".toList ∨
      numberLayout.text number =
        NumberLayout.signed number.negative "Infinity".toList := by
  have notBelow : Binary64.infinityRank ≤ number.rank := by
    simpa [Binary64.isFinite] using notFinite
  rcases Nat.lt_or_eq_of_le notBelow with above | isInfinity
  · have isNaN : number.isNaN = true := by
      simpa [Binary64.isNaN] using above
    have notANumber : numberLayout.notANumber = "NaN" := by
      simp only [numberLayout]
    left
    simp only [NumberLayout.text, isNaN, if_true, notANumber]
  · have isNumber : number.isNaN = false := by
      simp [Binary64.isNaN, ← isInfinity]
    have isInfinite : number.isInfinite = true := by
      simp [Binary64.isInfinite, ← isInfinity]
    have infinity : numberLayout.infinity = "Infinity" := by
      simp only [numberLayout]
    right
    simp only [NumberLayout.text, isNumber, isInfinite, if_true,
      Bool.false_eq_true, if_false, infinity]

/-- Such a word is read as the text that it is. -/
theorem ofLiteral_text_of_not_isFinite
    {number : Binary64}
    (notFinite : number.isFinite = false) :
    ofLiteral (numberLayout.text number) =
      .text (String.ofList (numberLayout.text number)) := by
  rcases text_of_not_isFinite notFinite with isWord | isWord
  · rw [isWord]
    decide +kernel
  · rw [isWord]
    cases number.negative <;> decide +kernel

/-- No blank stands in a rendered number. -/
theorem isBlank_of_mem_text
    {number : Binary64}
    {character : Char}
    (member : character ∈ numberLayout.text number) :
    Text.isBlank character = false := by
  have ofWord
      {word : List Char}
      (noBlank : word.all (fun letter => !Text.isBlank letter) = true)
      (inWord : character ∈ word) :
      Text.isBlank character = false := by
    simpa using List.all_eq_true.mp noBlank character inWord
  cases finite : number.isFinite with
  | false =>
      rcases text_of_not_isFinite finite with isWord | isWord
      · exact ofWord (by decide) (isWord ▸ member)
      · refine ofWord ?_ (isWord ▸ member)
        cases number.negative <;> decide
  | true =>
      cases isZero : number.isZero with
      | true =>
          exact ofWord (by decide) (text_of_isZero isZero ▸ member)
      | false =>
          cases plain : isPlainNumber number with
          | true =>
              obtain ⟨_, found, _⟩ := ofNumeral_of_isPlainNumber plain
              exact Numeral.isBlank_of_ofText? found member
          | false =>
              obtain ⟨_, isScientific, _⟩ :=
                exists_isScientific_text finite isZero plain
              exact isScientific.isBlank member

/-- Zeros and numbers of moderate size read as numbers that agree with them. -/
theorem exists_read_of_isZero_or_isPlainNumber
    {number : Binary64}
    (readable : number.isZero = true ∨ isPlainNumber number = true) :
    ∃ read,
      ofLiteral (numberLayout.text number) = .number read ∧
        read.agrees number = true := by
  rcases readable with isZero | plain
  · exact
      ⟨unsignedZero, ofLiteral_text_of_isZero isZero,
        agrees_of_isZero isZero⟩
  · exact
      ⟨number, ofLiteral_text_of_isPlainNumber plain,
        Binary64.agrees_self
          (Binary64.isNaN_of_lt (rank_of_isPlainNumber plain).2)⟩

/-- All other numbers read as what they were rendered as. -/
theorem ofLiteral_text_of_not_isPlainNumber
    {number : Binary64}
    (notZero : number.isZero = false)
    (notPlain : isPlainNumber number = false) :
    ofLiteral (numberLayout.text number) =
      .text (String.ofList (numberLayout.text number)) := by
  cases finite : number.isFinite with
  | false =>
      exact ofLiteral_text_of_not_isFinite finite
  | true =>
      obtain ⟨_, isScientific, _⟩ :=
        exists_isScientific_text finite notZero notPlain
      exact ofLiteral_of_isScientific isScientific

/-- Finite numbers that are rendered alike are equal. -/
theorem agrees_of_text_eq
    {first second : Binary64}
    (firstFinite : first.isFinite = true)
    (secondFinite : second.isFinite = true)
    (same : numberLayout.text first = numberLayout.text second) :
    first.agrees second = true := by
  by_cases firstReadable :
      first.isZero = true ∨ isPlainNumber first = true
  · obtain ⟨read, isRead, agreesFirst⟩ :=
      exists_read_of_isZero_or_isPlainNumber firstReadable
    rw [same] at isRead
    by_cases secondReadable :
        second.isZero = true ∨ isPlainNumber second = true
    · obtain ⟨read', isRead', agreesSecond⟩ :=
        exists_read_of_isZero_or_isPlainNumber secondReadable
      cases isRead.symm.trans isRead'
      exact Binary64.agrees_of_agrees agreesFirst agreesSecond
    · simp only [not_or, Bool.not_eq_true] at secondReadable
      have isText :=
        ofLiteral_text_of_not_isPlainNumber
          secondReadable.1 secondReadable.2
      cases isRead.symm.trans isText
  · simp only [not_or, Bool.not_eq_true] at firstReadable
    by_cases secondReadable :
        second.isZero = true ∨ isPlainNumber second = true
    · obtain ⟨read, isRead, _⟩ :=
        exists_read_of_isZero_or_isPlainNumber secondReadable
      have isText :=
        ofLiteral_text_of_not_isPlainNumber firstReadable.1 firstReadable.2
      rw [same] at isText
      cases isRead.symm.trans isText
    · simp only [not_or, Bool.not_eq_true] at secondReadable
      obtain ⟨numeral, isScientific, isFirst⟩ :=
        exists_isScientific_text firstFinite
          firstReadable.1 firstReadable.2
      obtain ⟨numeral', isScientific', isSecond⟩ :=
        exists_isScientific_text secondFinite
          secondReadable.1 secondReadable.2
      rw [same] at isScientific
      have sameNumber : first = second := by
        rw [← isFirst, isScientific.unique isScientific', isSecond]
      rw [← sameNumber]
      exact Binary64.agrees_self
        (Binary64.isNaN_of_lt (by simpa [Binary64.isFinite] using firstFinite))

/--
Reading a rendered number gives the number, the zero without a sign, or the text
that was rendered, each for exactly the numbers that the size tells.
-/
theorem rendersFaithfully (number : Binary64) :
    RendersFaithfully number := by
  have notPlain
      (notModerate : ¬IsModerate number) :
      isPlainNumber number = false :=
    Bool.eq_false_iff.mpr fun plain =>
      notModerate (isPlainNumber_iff.mp plain)
  constructor
  case zero =>
    intro isZero
    rw [toList_render_number]
    exact ⟨ofLiteral_text_of_isZero isZero, agrees_of_isZero isZero⟩
  case moderate =>
    intro isModerate
    have plain := isPlainNumber_iff.mpr isModerate
    rw [toList_render_number]
    exact
      ⟨ofLiteral_text_of_isPlainNumber plain,
        Binary64.agrees_self
          (Binary64.isNaN_of_lt (rank_of_isPlainNumber plain).2)⟩
  case otherwise =>
    intro notZero notModerate
    rw [toList_render_number]
    exact ofLiteral_text_of_not_isPlainNumber notZero (notPlain notModerate)
  case scientific =>
    intro finite notZero notModerate
    rw [toList_render_number]
    exact exists_isScientific_text finite notZero (notPlain notModerate)
  case injective =>
    intro other finite otherFinite same
    have sameText := congrArg String.toList same
    rw [toList_render_number, toList_render_number] at sameText
    exact agrees_of_text_eq finite otherFinite sameText

example : render (.number ⟨true, 0, 1⟩) = "-5e-324" := by
  decide +kernel

end AnchorScript.Value
