import AnchorScript.Text.Blank

namespace AnchorScript.Text

/-!
# Spans and trimming

What is taken from the front of a text whose parts are known, and what trimming
does to a text whose ends are known: blanks that are added at an end are taken
away again, and a text that neither starts nor ends with a blank stays as it is.
-/

/-- A span ends where the text goes on with a character that does not belong to it. -/
theorem takeWhile_append_of_stop
    {accepted : Char → Bool}
    {span rest : List Char}
    (inside : ∀ character ∈ span, accepted character = true)
    (stop :
      ∀ character, rest.head? = some character → accepted character = false) :
    (span ++ rest).takeWhile accepted = span := by
  rw [List.takeWhile_append_of_pos inside]
  cases rest with
  | nil =>
      simp
  | cons first rest =>
      simp [stop first rfl]

/-- What is left after a span is the text after it. -/
theorem dropWhile_append_of_stop
    {accepted : Char → Bool}
    {span rest : List Char}
    (inside : ∀ character ∈ span, accepted character = true)
    (stop :
      ∀ character, rest.head? = some character → accepted character = false) :
    (span ++ rest).dropWhile accepted = rest := by
  rw [List.dropWhile_append_of_pos inside]
  cases rest with
  | nil =>
      rfl
  | cons first rest =>
      simp [stop first rfl]

/-- A blank differs from every character that is not one. -/
theorem ne_of_isBlank
    {blank other : Char}
    (isBlank : isBlank blank = true)
    (notBlank : Text.isBlank other = false) :
    blank ≠ other := by
  rintro rfl
  exact absurd (isBlank.symm.trans notBlank) (by decide)

/-- No letter and no digit is a blank. -/
theorem isBlank_of_isAlphanum
    {character : Char}
    (alphanumeric : character.isAlphanum = true) :
    isBlank character = false := by
  delta Char.isAlphanum Char.isAlpha Char.isUpper Char.isLower Char.isDigit
    at alphanumeric
  simp only [Bool.or_eq_true, Bool.and_eq_true, decide_eq_true_eq,
    ge_iff_le, UInt32.le_iff_toNat_le] at alphanumeric
  change
    ((65 ≤ character.toNat ∧ character.toNat ≤ 90) ∨
        (97 ≤ character.toNat ∧ character.toNat ≤ 122)) ∨
      (48 ≤ character.toNat ∧ character.toNat ≤ 57) at alphanumeric
  simp only [isBlank, blankRanges, List.any_cons, List.any_nil,
    Bool.or_false, Bool.or_eq_false_iff, Bool.and_eq_false_iff,
    decide_eq_false_iff_not]
  omega

theorem trimStart_blanks_append
    {blanks : List Char}
    (allBlank : ∀ character ∈ blanks, isBlank character = true)
    (text : List Char) :
    trimStart (blanks ++ text) = trimStart text :=
  List.dropWhile_append_of_pos allBlank

theorem trimStart_cons
    {first : Char}
    (notBlank : isBlank first = false)
    (rest : List Char) :
    trimStart (first :: rest) = first :: rest :=
  List.dropWhile_cons_of_neg (by simp [notBlank])

theorem trimStart_eq_nil
    {blanks : List Char}
    (allBlank : ∀ character ∈ blanks, isBlank character = true) :
    trimStart blanks = [] := by
  simpa [trimStart] using trimStart_blanks_append allBlank []

/-- Blanks behind a text are trimmed away. -/
theorem trimEnd_append_blanks
    (text : List Char)
    {blanks : List Char}
    (allBlank : ∀ character ∈ blanks, isBlank character = true) :
    trimEnd (text ++ blanks) = trimEnd text := by
  have allBlankReversed :
      ∀ character ∈ blanks.reverse, isBlank character = true := by
    intro character member
    exact allBlank character (List.mem_reverse.mp member)
  simp only [trimEnd, List.reverse_append,
    List.dropWhile_append_of_pos allBlankReversed]

/-- Where something is left of a text, what stands behind it is left too. -/
theorem trimStart_append
    {text : List Char}
    (notBlank : trimStart text ≠ [])
    (rest : List Char) :
    trimStart (text ++ rest) = trimStart text ++ rest := by
  simp only [trimStart] at notBlank ⊢
  rw [List.dropWhile_append, if_neg]
  simpa only [List.isEmpty_iff] using notBlank

/-- Blanks behind a text stay when its front is trimmed, or are trimmed with all of it. -/
theorem exists_blanks_trimStart_append
    (text : List Char)
    {blanks : List Char}
    (areBlank : ∀ character ∈ blanks, isBlank character = true) :
    ∃ left,
      (∀ character ∈ left, isBlank character = true) ∧
        trimStart (text ++ blanks) = trimStart text ++ left := by
  by_cases onlyBlanks : trimStart text = []
  · refine ⟨[], List.forall_mem_nil _, ?_⟩
    have noBlanks := trimStart_eq_nil areBlank
    simp only [trimStart] at onlyBlanks noBlanks ⊢
    rw [List.dropWhile_append, onlyBlanks, noBlanks]
    rfl
  · exact ⟨blanks, areBlank, trimStart_append onlyBlanks blanks⟩

/-- Where something is left of a text, what stands in front of it is left too. -/
theorem trimEnd_append
    (rest : List Char)
    {text : List Char}
    (notBlank : trimEnd text ≠ []) :
    trimEnd (rest ++ text) = rest ++ trimEnd text := by
  have reversed : trimStart text.reverse ≠ [] := by
    simpa only [trimEnd, trimStart, ne_eq, List.reverse_eq_nil_iff]
      using notBlank
  have front := trimStart_append reversed rest.reverse
  simp only [trimStart] at front
  rw [trimEnd, List.reverse_append, front, List.reverse_append,
    List.reverse_reverse, trimEnd]

/-- A text that does not end with a blank keeps its end. -/
theorem trimEnd_eq_self
    {text : List Char}
    {last : Char}
    (isLast : text.getLast? = some last)
    (notBlank : isBlank last = false) :
    trimEnd text = text := by
  obtain ⟨earlier, rfl⟩ := List.getLast?_eq_some_iff.mp isLast
  have kept : trimEnd [last] = [last] := by
    simp [trimEnd, notBlank]
  rw [trimEnd_append earlier (by simp [kept]), kept]

theorem getLast?_trimStart
    {text : List Char}
    {last : Char}
    (isLast : text.getLast? = some last)
    (notBlank : isBlank last = false) :
    (trimStart text).getLast? = some last := by
  obtain ⟨earlier, rfl⟩ := List.getLast?_eq_some_iff.mp isLast
  by_cases onlyBlanks : trimStart earlier = []
  · rw [trimStart, List.dropWhile_append, ← trimStart, onlyBlanks]
    simp [notBlank]
  · rw [trimStart_append onlyBlanks, List.getLast?_concat]

/-- Blanks in front of a text do not count. -/
theorem trim_blanks_append
    {blanks : List Char}
    (allBlank : ∀ character ∈ blanks, isBlank character = true)
    (text : List Char) :
    trim (blanks ++ text) = trim text := by
  simp only [trim, trimStart_blanks_append allBlank]

/-- Blanks behind a text do not count, even where it has nothing but blanks. -/
theorem trim_append_blanks
    (text : List Char)
    {blanks : List Char}
    (allBlank : ∀ character ∈ blanks, isBlank character = true) :
    trim (text ++ blanks) = trim text := by
  by_cases onlyBlanks : trimStart text = []
  · have nothing : trimStart (text ++ blanks) = [] := by
      have noBlanks := trimStart_eq_nil allBlank
      simp only [trimStart] at onlyBlanks noBlanks ⊢
      rw [List.dropWhile_append, onlyBlanks, noBlanks]
      rfl
    rw [trim, trim, nothing, onlyBlanks]
  · rw [trim, trim, trimStart_append onlyBlanks,
      trimEnd_append_blanks _ allBlank]

/-- What is trimmed away behind a text are blanks. -/
theorem exists_blanks_trimEnd (text : List Char) :
    ∃ blanks,
      (∀ character ∈ blanks, isBlank character = true) ∧
        text = trimEnd text ++ blanks := by
  refine ⟨(text.reverse.takeWhile isBlank).reverse, ?_, ?_⟩
  · intro character member
    exact List.all_eq_true.mp List.all_takeWhile character
      (List.mem_reverse.mp member)
  · rw [trimEnd, ← List.reverse_append, List.takeWhile_append_dropWhile,
      List.reverse_reverse]

/-- Trimming the end first makes no difference. -/
theorem trim_trimEnd (text : List Char) :
    trim (trimEnd text) = trim text := by
  obtain ⟨blanks, allBlank, split⟩ := exists_blanks_trimEnd text
  calc
    trim (trimEnd text)
        = trim (trimEnd text ++ blanks) :=
          (trim_append_blanks _ allBlank).symm
    _ = trim text := by
          rw [← split]

/-- A character that is not blank is kept, with what stands behind it. -/
theorem trim_cons
    {first : Char}
    (notBlank : isBlank first = false)
    (rest : List Char) :
    trim (first :: rest) = first :: trimEnd rest := by
  rw [trim, trimStart_cons notBlank, trimEnd, List.reverse_cons,
    List.dropWhile_append]
  by_cases onlyBlanks : (rest.reverse.dropWhile isBlank).isEmpty = true
  · have nothing : trimEnd rest = [] := by
      rw [trimEnd, List.isEmpty_iff.mp onlyBlanks]
      rfl
    rw [if_pos onlyBlanks, nothing]
    simp [notBlank]
  · rw [if_neg onlyBlanks, List.reverse_append]
    rfl

/-- A character that is not blank starts a text only if it starts the trimmed text. -/
theorem head?_trim
    {text : List Char}
    {first : Char}
    (isFirst : text.head? = some first)
    (notBlank : isBlank first = false) :
    (trim text).head? = some first := by
  obtain ⟨rest, rfl⟩ := List.head?_eq_some_iff.mp isFirst
  rw [trim_cons notBlank, List.head?_cons]

/-- A space between two characters that are not blank stays when all is trimmed. -/
theorem trim_append_space_cons
    {left right : List Char}
    {last first : Char}
    (isLast : left.getLast? = some last)
    (lastNotBlank : isBlank last = false)
    (firstNotBlank : isBlank first = false) :
    trim (left ++ ' ' :: first :: right) =
      trim left ++ ' ' :: trim (first :: right) := by
  have leftEnd := getLast?_trimStart isLast lastNotBlank
  have leftKept : trimStart left ≠ [] := by
    intro nothing
    simp [nothing] at leftEnd
  have rightTrimmed : trimEnd (first :: right) = trim (first :: right) := by
    rw [trim, trimStart_cons firstNotBlank]
  have rightKept : trimEnd (first :: right) ≠ [] := by
    simp [rightTrimmed, trim_cons firstNotBlank]
  have spaced :
      trimEnd (' ' :: first :: right) = ' ' :: trim (first :: right) := by
    rw [← rightTrimmed]
    exact trimEnd_append [' '] rightKept
  have leftTrimmed : trim left = trimStart left :=
    trimEnd_eq_self leftEnd lastNotBlank
  rw [leftTrimmed, trim, trimStart_append leftKept,
    trimEnd_append _ (by simp [spaced]), spaced]

/-- A text without blanks at its ends is trimmed. -/
theorem trim_eq_self
    {text : List Char}
    (first :
      ∀ character, text.head? = some character → isBlank character = false)
    (last :
      ∀ character,
        text.getLast? = some character → isBlank character = false) :
    trim text = text := by
  have front : trimStart text = text := by
    cases text with
    | nil =>
        rfl
    | cons head rest =>
        exact trimStart_cons (first head rfl) rest
  have back : trimEnd text = text := by
    cases isLast : text.getLast? with
    | none =>
        rw [List.getLast?_eq_none_iff.mp isLast]
        rfl
    | some final =>
        exact trimEnd_eq_self isLast (last final isLast)
  rw [trim, front, back]

/-- A text without any blank is trimmed. -/
theorem trim_eq_self_of_forall
    {text : List Char}
    (noBlank : ∀ character ∈ text, isBlank character = false) :
    trim text = text :=
  trim_eq_self
    (fun character isFirst =>
      noBlank character (List.mem_of_head? isFirst))
    (fun character isLast =>
      noBlank character (List.mem_of_getLast? isLast))

/-- Trimming twice is trimming once. -/
theorem trim_trim (text : List Char) :
    trim (trim text) = trim text := by
  calc
    trim (trim text)
        = trim (trimStart text) := trim_trimEnd (trimStart text)
    _ = trim (text.takeWhile isBlank ++ trimStart text) :=
          (trim_blanks_append
            (List.all_eq_true.mp List.all_takeWhile) _).symm
    _ = trim text := by
          rw [trimStart, List.takeWhile_append_dropWhile]

theorem trim_infix (text : List Char) :
    trim text <:+: text := by
  obtain ⟨blanks, _, split⟩ := exists_blanks_trimEnd (trimStart text)
  have front : trim text <+: trimStart text := ⟨blanks, split.symm⟩
  exact front.isInfix.trans (List.dropWhile_suffix isBlank).isInfix

/-- A text that trimming leaves as it is does not start with a blank. -/
theorem isBlank_head_of_trim_eq_self
    {text : List Char}
    {first : Char}
    (trimmed : trim text = text)
    (isFirst : text.head? = some first) :
    isBlank first = false := by
  obtain ⟨rest, rfl⟩ := List.head?_eq_some_iff.mp isFirst
  apply Bool.eq_false_iff.mpr
  intro blank
  have shorter : trim (first :: rest) = trim rest :=
    trim_blanks_append (List.forall_mem_singleton.mpr blank) rest
  have part := trim_infix rest
  have bounded := part.length_le
  rw [← shorter, trimmed] at bounded
  exact absurd bounded (Nat.not_succ_le_self _)

/-- A text that trimming leaves as it is does not end with a blank. -/
theorem isBlank_getLast_of_trim_eq_self
    {text : List Char}
    {last : Char}
    (trimmed : trim text = text)
    (isLast : text.getLast? = some last) :
    isBlank last = false := by
  obtain ⟨front, rfl⟩ := List.getLast?_eq_some_iff.mp isLast
  apply Bool.eq_false_iff.mpr
  intro blank
  have shorter : trim (front ++ [last]) = trim front :=
    trim_append_blanks front (List.forall_mem_singleton.mpr blank)
  have part := trim_infix front
  have bounded := part.length_le
  rw [← shorter, trimmed, List.length_append] at bounded
  exact absurd bounded (Nat.not_succ_le_self _)

end AnchorScript.Text
