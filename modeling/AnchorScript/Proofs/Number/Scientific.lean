import AnchorScript.Proofs.Reader.WrittenStatement

namespace AnchorScript

/-!
# Numbers with a power of ten

Very large and very small numbers are written with a power of ten, which is no
numeral of the language. What is written still says which number it was: it has
only one mantissa and only one power, and their decimal rounds to the number.
Read as a literal it stays a text.
-/

namespace Numeral

/-- The numeral with its point moved by a power of ten. -/
def timesPowerOfTen
    (numeral : Numeral)
    (power : Int) :
    Numeral :=
  ⟨numeral.negative,
    ⟨numeral.magnitude.coefficient, numeral.magnitude.exponent + power⟩⟩

/-- The digits of a power of ten behind its sign, which is never left out. -/
def powerText (power : Int) : List Char :=
  (if power < 0 then '-' else '+') :: Nat.toDigits 10 power.natAbs

/-- The text is a mantissa and a power of ten, and they stand for the numeral. -/
def IsScientific
    (text : List Char)
    (numeral : Numeral) :
    Prop :=
  ∃ mantissa read power,
    ofText? mantissa = some read ∧
      text = mantissa ++ 'e' :: powerText power ∧
      numeral = read.timesPowerOfTen power

/-- A power of ten is known by its text. -/
theorem powerText_injective
    {first second : Int}
    (same : powerText first = powerText second) :
    first = second := by
  obtain ⟨sameSign, sameDigits⟩ := List.cons.inj same
  have sameMagnitude : first.natAbs = second.natAbs := by
    rw [← Nat.ofDigitChars_ten_toDigits (n := first.natAbs), sameDigits,
      Nat.ofDigitChars_ten_toDigits]
  have differentSigns : ('-' : Char) ≠ '+' := by decide
  split at sameSign <;> split at sameSign
  · omega
  · exact absurd sameSign differentSigns
  · exact absurd sameSign differentSigns.symm
  · omega

/-- A mantissa has no mark of a power in it. -/
theorem mark_not_mem
    {text : List Char}
    {numeral : Numeral}
    (found : ofText? text = some numeral) :
    'e' ∉ text :=
  not_mem_of_ofText? found (by decide) (by decide) (by decide)

/-- A text with a power of ten stands for one numeral only. -/
theorem IsScientific.unique
    {text : List Char}
    {first second : Numeral}
    (isFirst : IsScientific text first)
    (isSecond : IsScientific text second) :
    first = second := by
  obtain ⟨mantissa, read, power, found, written, rfl⟩ := isFirst
  obtain ⟨mantissa', read', power', found', written', rfl⟩ := isSecond
  have cut : Text.cut? 'e' text = some (mantissa, powerText power) :=
    Text.cut?_eq_some_iff.mpr ⟨written, mark_not_mem found⟩
  have cut' : Text.cut? 'e' text = some (mantissa', powerText power') :=
    Text.cut?_eq_some_iff.mpr ⟨written', mark_not_mem found'⟩
  obtain ⟨sameMantissa, samePower⟩ :=
    Prod.mk.inj (Option.some.inj (cut.symm.trans cut'))
  subst sameMantissa
  rw [powerText_injective samePower,
    Option.some.inj (found.symm.trans found')]

/-- What a number with a power of ten is written with. -/
theorem IsScientific.mem
    {text : List Char}
    {numeral : Numeral}
    (isScientific : IsScientific text numeral)
    {character : Char}
    (member : character ∈ text) :
    character.isDigit = true ∨
      character = '.' ∨
      character = '-' ∨
      character = '+' ∨
      character = 'e' := by
  obtain ⟨mantissa, read, power, found, rfl, _⟩ := isScientific
  rcases List.mem_append.mp member with inMantissa | inPower
  · rcases mem_of_ofText? found inMantissa with isDigit | isPoint | isSign
    · exact Or.inl isDigit
    · exact Or.inr (Or.inl isPoint)
    · exact Or.inr (Or.inr (Or.inl isSign))
  · rw [powerText, List.mem_cons, List.mem_cons] at inPower
    rcases inPower with isMark | isSign | isDigit
    · exact Or.inr (Or.inr (Or.inr (Or.inr isMark)))
    · split at isSign
      · exact Or.inr (Or.inr (Or.inl isSign))
      · exact Or.inr (Or.inr (Or.inr (Or.inl isSign)))
    · exact Or.inl
        (Nat.isDigit_of_mem_toDigits (by decide) (by decide) isDigit)

theorem IsScientific.isBlank
    {text : List Char}
    {numeral : Numeral}
    (isScientific : IsScientific text numeral)
    {character : Char}
    (member : character ∈ text) :
    Text.isBlank character = false := by
  rcases isScientific.mem member with
    isDigit | isPoint | isMinus | isPlus | isMark
  · exact Text.isBlank_of_isAlphanum (by simp [Char.isAlphanum, isDigit])
  · exact isPoint ▸ (by decide)
  · exact isMinus ▸ (by decide)
  · exact isPlus ▸ (by decide)
  · exact isMark ▸ (by decide)

/-- Nothing else stands in a number with a power of ten. -/
theorem IsScientific.not_mem
    {text : List Char}
    {numeral : Numeral}
    (isScientific : IsScientific text numeral)
    {character : Char}
    (notDigit : character.isDigit = false)
    (notOther : character ∉ ['.', '-', '+', 'e']) :
    character ∉ text := by
  intro member
  rcases isScientific.mem member with isDigit | isOther
  · exact Bool.false_ne_true (notDigit.symm.trans isDigit)
  · exact notOther (by simpa using isOther)

end Numeral

namespace Digits

private theorem signed_append
    (negative : Bool)
    (text rest : List Char) :
    NumberLayout.signed negative (text ++ rest) =
      NumberLayout.signed negative text ++ rest := by
  cases negative <;> rfl

/-- One digit before the point and the others behind it stand for all the digits. -/
theorem exists_mantissa
    {first : Char}
    {places : List Char}
    (allDigits : ∀ digit ∈ first :: places, digit.isDigit = true) :
    ∃ mantissa,
      (∀ point,
        scientific ['+'] ⟨first :: places, point⟩ =
          mantissa ++ 'e' :: Numeral.powerText (point - 1)) ∧
        Numeral.unsigned? mantissa =
          some ⟨Nat.ofDigitChars 10 (first :: places) 0,
            -(places.length : Int)⟩ := by
  have oneDigit : ([first] : List Char) ≠ [] := List.cons_ne_nil _ _
  have signOf
      (power : Int) :
      (if power < 0 then ['-'] else ['+']) ++ Nat.toDigits 10 power.natAbs =
        Numeral.powerText power := by
    rw [Numeral.powerText]
    split <;> rfl
  cases places with
  | nil =>
      refine ⟨[first], ?_, Numeral.unsigned?_whole oneDigit allDigits⟩
      intro point
      simp only [scientific, signOf]
  | cons place places =>
      obtain ⟨firstDigit, placesDigits⟩ := List.forall_mem_cons.mp allDigits
      refine
        ⟨[first] ++ '.' :: place :: places, ?_,
          Numeral.unsigned?_places oneDigit (List.cons_ne_nil _ _)
            (List.forall_mem_singleton.mpr firstDigit) placesDigits⟩
      intro point
      simp only [scientific, signOf]
      rfl

/-- Digits with a power of ten stand for the same decimal as digits with a point. -/
theorem isScientific_scientific
    {digits : List Char}
    (nonempty : digits ≠ [])
    (allDigits : ∀ digit ∈ digits, digit.isDigit = true)
    (point : Int)
    (negative : Bool) :
    Numeral.IsScientific
      (NumberLayout.signed negative (scientific ['+'] ⟨digits, point⟩))
      ⟨negative, decimal ⟨digits, point⟩⟩ := by
  cases digits with
  | nil =>
      exact absurd rfl nonempty
  | cons first places =>
      obtain ⟨mantissa, written, found⟩ := exists_mantissa allDigits
      refine
        ⟨NumberLayout.signed negative mantissa, _, point - 1,
          Numeral.ofText?_signed found negative, ?_, ?_⟩
      · rw [written, signed_append]
      · have exponent :
            point - ((first :: places).length : Int) =
              -(places.length : Int) + (point - 1) := by
          rw [List.length_cons]
          omega
        simp only [decimal, Numeral.timesPowerOfTen, exponent]

end Digits

namespace Value

/-- A word without blanks that is neither a flag, nor a numeral, nor quoted is a text. -/
theorem ofLiteral_of_word
    {word : List Char}
    (noBlank : ∀ character ∈ word, Text.isBlank character = false)
    (notFlag : 't' ∉ word ∧ 'f' ∉ word)
    (notNumeral : Numeral.ofText? word = none)
    (notQuoted : '"' ∉ word ∧ '\'' ∉ word) :
    ofLiteral word = .text (String.ofList word) := by
  have trimmed : Text.trim word = word :=
    Text.trim_eq_self_of_forall noBlank
  have notTrue : word ≠ ['t', 'r', 'u', 'e'] := by
    rintro rfl
    exact notFlag.1 List.mem_cons_self
  have notFalse : word ≠ ['f', 'a', 'l', 's', 'e'] := by
    rintro rfl
    exact notFlag.2 List.mem_cons_self
  have unquoted
      {quote : Char}
      (absent : quote ∉ word) :
      Reader.isQuotedBy quote word = false := by
    rw [Reader.isQuotedBy, Bool.and_eq_false_iff]
    left
    rw [decide_eq_false_iff_not]
    intro isFirst
    exact absent (List.mem_of_head? isFirst)
  simp only [ofLiteral, trimmed, notTrue, notFalse, notNumeral,
    Reader.unquote, unquoted notQuoted.1, unquoted notQuoted.2,
    Bool.or_self, Bool.false_eq_true, if_false]

/-- A number with a power of ten is read as the text that it is. -/
theorem ofLiteral_of_isScientific
    {text : List Char}
    {numeral : Numeral}
    (isScientific : Numeral.IsScientific text numeral) :
    ofLiteral text = .text (String.ofList text) := by
  have notNumeral : Numeral.ofText? text = none := by
    cases found : Numeral.ofText? text with
    | none =>
        rfl
    | some numeral =>
        obtain ⟨mantissa, _, _, _, rfl, _⟩ := isScientific
        exact absurd List.mem_append_cons_self (Numeral.mark_not_mem found)
  apply ofLiteral_of_word _ _ notNumeral _
  · exact fun _ => isScientific.isBlank
  · exact
      ⟨isScientific.not_mem (by decide) (by decide),
        isScientific.not_mem (by decide) (by decide)⟩
  · exact
      ⟨isScientific.not_mem (by decide) (by decide),
        isScientific.not_mem (by decide) (by decide)⟩

end Value

end AnchorScript
