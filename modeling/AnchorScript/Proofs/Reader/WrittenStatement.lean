import AnchorScript.Proofs.Modifiers.Agreement
import AnchorScript.Proofs.Reader.SentenceReading
import Mathlib.Data.List.Forall2

namespace AnchorScript

/-!
# Written statements are sentences

A statement is written with its two anchors in brackets and its modifiers in one
block. Under conditions on its parts the line is a sentence of the grammar, and
the literals in it stand for the values that were written. The conditions are
those that writing does not check: texts are put in quotes as they are, and
anchors in brackets.
-/

/-- What an anchor may be made of so that it can be written in brackets on a line. -/
structure Anchor.IsWritableText (raw : List Char) : Prop where
  nonempty : raw ≠ []
  trimmed : Text.trim raw = raw
  unclosed : ']' ∉ raw
  unbroken : '\n' ∉ raw
  noBlock : ¬"::mod(".toList <:+: raw

/-- The anchor was read from a text that can be written in brackets. -/
def Anchor.IsWritable (anchor : Anchor) : Prop :=
  ∃ raw, anchor = Anchor.ofText raw ∧ Anchor.IsWritableText raw

/--
A value that reads back: texts have their quotes escaped and their parentheses
balanced, and numbers are zeros or of moderate size.
-/
def Value.IsWritable : Value → Prop
  | .flag _ => True
  | .number binary =>
      binary.isZero = true ∨ Value.IsModerate binary
  | .text written =>
      '\n' ∉ written.toList ∧
        Sentence.Escaped '"' written.toList ∧
        Sentence.Balanced written.toList

/-- The key is a word. -/
def IsWritableKey (key : String) : Prop :=
  key.toList ≠ [] ∧
    ∀ character ∈ key.toList,
      character.isAlphanum = true ∨ character = '_'

/-- Every part of the statement can be written. -/
structure Statement.IsWritable (statement : Statement) : Prop where
  source : statement.source.IsWritable
  target : statement.target.IsWritable
  keys : ∀ entry ∈ statement.modifiers.entries, IsWritableKey entry.1
  values : ∀ entry ∈ statement.modifiers.entries, entry.2.IsWritable

theorem Anchor.toList_raw
    {anchor : Anchor}
    {raw : List Char}
    (read : anchor = Anchor.ofText raw)
    (writable : Anchor.IsWritableText raw) :
    anchor.raw.toList = raw := by
  rw [read, Anchor.ofText, writable.trimmed]
  cases Text.cut? ':' raw <;> simp

namespace Numeral

/-- A numeral consists of digits, points and minus signs. -/
theorem mem_of_ofText?
    {text : List Char}
    {numeral : Numeral}
    (found : ofText? text = some numeral)
    {character : Char}
    (member : character ∈ text) :
    character.isDigit = true ∨ character = '.' ∨ character = '-' := by
  unfold ofText? at found
  split at found
  · simp only [Option.map_eq_some_iff] at found
    obtain ⟨magnitude, foundRest, _⟩ := found
    rcases List.mem_cons.mp member with isSign | inRest
    · exact Or.inr (Or.inr isSign)
    · exact (mem_of_unsigned? foundRest inRest).imp_right Or.inl
  · simp only [Option.map_eq_some_iff] at found
    obtain ⟨magnitude, foundText, _⟩ := found
    exact (mem_of_unsigned? foundText member).imp_right Or.inl

/-- What a numeral consists of is neither a blank, nor a delimiter, nor a letter. -/
theorem not_mem_of_ofText?
    {text : List Char}
    {numeral : Numeral}
    (found : ofText? text = some numeral)
    {character : Char}
    (notDigit : character.isDigit = false)
    (notPoint : character ≠ '.')
    (notSign : character ≠ '-') :
    character ∉ text := by
  intro member
  rcases mem_of_ofText? found member with isDigit | isPoint | isSign
  · simp [notDigit] at isDigit
  · exact notPoint isPoint
  · exact notSign isSign

theorem isBlank_of_ofText?
    {text : List Char}
    {numeral : Numeral}
    (found : ofText? text = some numeral)
    {character : Char}
    (member : character ∈ text) :
    Text.isBlank character = false := by
  rcases mem_of_ofText? found member with isDigit | isPoint | isSign
  · exact Text.isBlank_of_isAlphanum (by simp [Char.isAlphanum, isDigit])
  · exact isPoint ▸ (by decide)
  · exact isSign ▸ (by decide)

theorem ne_nil_of_ofText?
    {text : List Char}
    {numeral : Numeral}
    (found : ofText? text = some numeral) :
    text ≠ [] := by
  rintro rfl
  simp [ofText?, unsigned?] at found

end Numeral

namespace Value

/-- A literal that is a numeral stands for its number. -/
theorem ofLiteral_of_numeral
    {text : List Char}
    {numeral : Numeral}
    (found : Numeral.ofText? text = some numeral) :
    ofLiteral text = .number (Binary64.ofNumeral numeral) := by
  have trimmed : Text.trim text = text :=
    Text.trim_eq_self_of_forall fun _ => Numeral.isBlank_of_ofText? found
  have noE : 'e' ∉ text :=
    Numeral.not_mem_of_ofText? found (by decide) (by decide) (by decide)
  have notTrue : text ≠ ['t', 'r', 'u', 'e'] := by
    rintro rfl
    simp at noE
  have notFalse : text ≠ ['f', 'a', 'l', 's', 'e'] := by
    rintro rfl
    simp at noE
  simp only [ofLiteral, trimmed, notTrue, notFalse, if_false, found]

/-- A literal in double quotes stands for the text between them. -/
theorem ofLiteral_of_quoted (written : List Char) :
    ofLiteral ('"' :: written ++ ['"']) = .text (String.ofList written) := by
  have trimmed :
      Text.trim ('"' :: written ++ ['"']) = '"' :: written ++ ['"'] := by
    refine Text.trim_eq_self ?_ ?_
    · intro character isFirst
      simp only [List.cons_append, List.head?_cons,
        Option.some.injEq] at isFirst
      exact isFirst ▸ (by decide)
    · intro character isLast
      rw [List.getLast?_concat, Option.some.injEq] at isLast
      exact isLast ▸ (by decide)
  have notNumeral :
      Numeral.ofText? ('"' :: written ++ ['"']) = none := by
    cases found : Numeral.ofText? ('"' :: written ++ ['"']) with
    | none =>
        rfl
    | some numeral =>
        exact absurd List.mem_cons_self
          (Numeral.not_mem_of_ofText? found
            (by decide) (by decide) (by decide))
  have quoted :
      Reader.isQuotedBy '"' ('"' :: written ++ ['"']) = true := by
    rw [Reader.isQuotedBy, List.getLast?_concat]
    rfl
  simp only [ofLiteral, trimmed, notNumeral, Reader.unquote, quoted,
    Bool.true_or, if_true]
  simp

private theorem exists_numeral_of_isWritable
    {number : Binary64}
    (writable : (Value.number number).IsWritable) :
    ∃ numeral,
      Numeral.ofText? (numberLayout.text number) = some numeral ∧
        (Binary64.ofNumeral numeral).agrees number = true := by
  rcases writable with isZero | isModerate
  · refine ⟨⟨false, ⟨0, 0⟩⟩, ?_, ?_⟩
    · rw [text_of_isZero isZero]
      rfl
    · have rank : Binary64.rankOfDecimal ⟨0, 0⟩ = 0 :=
        Binary64.rankOfDecimal_of_coefficient_eq_zero rfl
      rw [Binary64.ofNumeral, rank]
      exact agrees_of_isZero isZero
  · have plain := isPlainNumber_iff.mpr isModerate
    obtain ⟨numeral, found, same⟩ := ofNumeral_of_isPlainNumber plain
    obtain ⟨_, finite⟩ := rank_of_isPlainNumber plain
    have isNumber : number.isNaN = false := by
      simp only [Binary64.isNaN, decide_eq_false_iff_not]
      omega
    exact ⟨numeral, found, same.symm ▸ Binary64.agrees_self isNumber⟩

end Value

namespace Sentence

/-- No blanks. -/
def Blanks.none : Blanks :=
  ⟨[], by simp⟩

/-- A single space. -/
def Blanks.space : Blanks :=
  ⟨[' '], List.forall_mem_singleton.mpr (by decide)⟩

/-- A numeral is a literal without quotes. -/
theorem exists_literal_of_numeral
    {text : List Char}
    {numeral : Numeral}
    (found : Numeral.ofText? text = some numeral) :
    ∃ literal : Literal, literal.text = text := by
  have absent
      {character : Char}
      (notDigit : character.isDigit = false)
      (notPoint : character ≠ '.')
      (notSign : character ≠ '-') :
      character ∉ text :=
    Numeral.not_mem_of_ofText? found notDigit notPoint notSign
  have noDoubleQuote : '"' ∉ text := absent (by decide) (by decide) (by decide)
  have noSingleQuote : '\'' ∉ text := absent (by decide) (by decide) (by decide)
  have noComma : ',' ∉ text := absent (by decide) (by decide) (by decide)
  have noOpening : '(' ∉ text := absent (by decide) (by decide) (by decide)
  have noClosing : ')' ∉ text := absent (by decide) (by decide) (by decide)
  cases text with
  | nil =>
      exact absurd rfl (Numeral.ne_nil_of_ofText? found)
  | cons first rest =>
      have notBlank : Text.isBlank first = false :=
        Numeral.isBlank_of_ofText? found List.mem_cons_self
      have notQuote : first ≠ '"' ∧ first ≠ '\'' :=
        ⟨fun same => noDoubleQuote (same ▸ List.mem_cons_self),
          fun same => noSingleQuote (same ▸ List.mem_cons_self)⟩
      refine ⟨.bare first rest notBlank notQuote ?_, rfl⟩
      intro character member
      exact ⟨fun same => noComma (same ▸ member),
        fun same => noOpening (same ▸ member),
        fun same => noClosing (same ▸ member)⟩

/--
A value that can be written has a literal, which stands after the equals sign of
its entry, holds no line feed, and stands for a value that agrees with it.
-/
theorem exists_literal_of_isWritable
    {value : Value}
    (writable : value.IsWritable) :
    ∃ literal : Literal,
      (∀ key,
        (Modifiers.renderEntry (key, value)).toList =
          key.toList ++ '=' :: literal.text) ∧
        '\n' ∉ literal.text ∧
        (Value.ofLiteral literal.text).agrees value = true := by
  cases value with
  | flag truth =>
      cases truth with
      | false =>
          refine
            ⟨.bare 'f' ['a', 'l', 's', 'e']
              (by decide) (by decide) (by simp), ?_, by decide, by decide⟩
          intro key
          simp [Modifiers.renderEntry, Value.render, Literal.text]
      | true =>
          refine
            ⟨.bare 't' ['r', 'u', 'e']
              (by decide) (by decide) (by simp), ?_, by decide, by decide⟩
          intro key
          simp [Modifiers.renderEntry, Value.render, Literal.text]
  | number binary =>
      obtain ⟨numeral, found, agrees⟩ :=
        Value.exists_numeral_of_isWritable writable
      obtain ⟨literal, written⟩ := exists_literal_of_numeral found
      refine ⟨literal, ?_, ?_, ?_⟩
      · intro key
        simp [Modifiers.renderEntry, Value.render, written]
      · rw [written]
        exact Numeral.not_mem_of_ofText? found
          (by decide) (by decide) (by decide)
      · rw [written, Value.ofLiteral_of_numeral found]
        exact agrees
  | text written =>
      obtain ⟨unbroken, escaped, balanced⟩ := writable
      refine
        ⟨.quoted '"' written.toList (Or.inl rfl) escaped balanced,
          ?_, ?_, ?_⟩
      · intro key
        simp [Modifiers.renderEntry, Literal.text]
      · simpa [Literal.text] using unbroken
      · rw [Literal.text, Value.ofLiteral_of_quoted]
        simp [Value.agrees]

/-- An entry that can be written is a pair. -/
theorem exists_pair_of_isWritable
    {entry : String × Value}
    (isKey : IsWritableKey entry.1)
    (writable : entry.2.IsWritable)
    (before : Blanks) :
    ∃ pair : Pair,
      pair.text = before.text ++ (Modifiers.renderEntry entry).toList ∧
        pair.entry.1 = entry.1 ∧
        pair.entry.2.agrees entry.2 = true := by
  obtain ⟨literal, written, _, agrees⟩ :=
    exists_literal_of_isWritable writable
  refine
    ⟨⟨before, ⟨entry.1.toList, isKey.1, isKey.2⟩, .none, .none,
      literal, .none⟩,
      ?_, ?_, agrees⟩
  · simp [Pair.text, Blanks.none, written entry.1]
  · simp [Pair.entry]

/-- The same key with a value that agrees. -/
def EntryAgrees (read written : String × Value) : Prop :=
  read.1 = written.1 ∧ read.2.agrees written.2 = true

/--
Entries after one another are the pairs of one block. The space behind a comma
belongs to the pair that follows.
-/
private theorem exists_pairs_of_isWritable
    {entry : String × Value}
    {rest : List (String × Value)}
    (areKeys : ∀ written ∈ entry :: rest, IsWritableKey written.1)
    (writable : ∀ written ∈ entry :: rest, written.2.IsWritable)
    (before : Blanks) :
    ∃ pairs : List Pair,
      [','].intercalate (pairs.map Pair.text) =
          before.text ++
            [',', ' '].intercalate
              ((entry :: rest).map
                fun written => (Modifiers.renderEntry written).toList) ∧
        List.Forall₂ EntryAgrees (pairs.map Pair.entry) (entry :: rest) := by
  induction rest generalizing entry before with
  | nil =>
      obtain ⟨pair, written, sameKey, agrees⟩ :=
        exists_pair_of_isWritable (areKeys entry List.mem_cons_self)
          (writable entry List.mem_cons_self) before
      refine ⟨[pair], ?_, .cons ⟨sameKey, agrees⟩ .nil⟩
      simp only [List.map_cons, List.map_nil, List.intercalate_singleton,
        written]
  | cons next rest inductionHypothesis =>
      obtain ⟨pair, written, sameKey, agrees⟩ :=
        exists_pair_of_isWritable (areKeys entry List.mem_cons_self)
          (writable entry List.mem_cons_self) before
      obtain ⟨pairs, restWritten, restAgree⟩ :=
        inductionHypothesis
          (fun later member =>
            areKeys later (List.mem_cons_of_mem _ member))
          (fun later member =>
            writable later (List.mem_cons_of_mem _ member))
          .space
      have nonempty : pairs.map Pair.text ≠ [] := by
        intro noPairs
        have noEntries : pairs.map Pair.entry = [] := by
          simpa using noPairs
        rw [noEntries] at restAgree
        cases restAgree
      refine ⟨pair :: pairs, ?_, .cons ⟨sameKey, agrees⟩ restAgree⟩
      rw [List.map_cons, List.intercalate_cons_of_ne_nil nonempty,
        restWritten, written]
      simp [Blanks.space]

/--
A statement that can be written is a sentence, with the same anchors in its
brackets and with entries that agree.
-/
theorem exists_sentence_of_isWritable
    {statement : Statement}
    (writable : statement.IsWritable) :
    ∃ sentence : Sentence,
      sentence.text = statement.render.toList ∧
        Anchor.ofText sentence.source.text = statement.source ∧
        Anchor.ofText sentence.target.text = statement.target ∧
        List.Forall₂ EntryAgrees
          sentence.entries statement.modifiers.entries := by
  obtain ⟨⟨source, sourceRead, sourceWritable⟩,
    ⟨target, targetRead, targetWritable⟩, keys, values⟩ := writable
  let endpoint
      {raw : List Char}
      (isWritable : Anchor.IsWritableText raw) :
      Endpoint :=
    ⟨raw, isWritable.nonempty, isWritable.unclosed, isWritable.noBlock⟩
  cases entries : statement.modifiers.entries with
  | nil =>
      refine
        ⟨⟨endpoint sourceWritable, .space, .hyphenated, .space,
          endpoint targetWritable, []⟩, ?_, sourceRead.symm, targetRead.symm,
          .nil⟩
      simp [text, endpoint, Blanks.space, Arrow.text, Statement.render,
        Modifiers.isEmpty, entries, Anchor.render,
        Anchor.toList_raw sourceRead sourceWritable,
        Anchor.toList_raw targetRead targetWritable]
  | cons entry rest =>
      rw [entries] at keys values
      obtain ⟨pairs, written, agree⟩ :=
        exists_pairs_of_isWritable keys values .none
      refine
        ⟨⟨endpoint sourceWritable, .space, .hyphenated, .space,
          endpoint targetWritable, [⟨.space, pairs⟩]⟩,
          ?_, sourceRead.symm, targetRead.symm, ?_⟩
      · have body :
            [','].intercalate (pairs.map Pair.text) =
              (String.intercalate ", "
                ((entry :: rest).map Modifiers.renderEntry)).toList := by
          rw [written, String.toList_intercalate, List.map_map]
          rfl
        simp [text, endpoint, Blanks.space, Arrow.text, Statement.render,
          Modifiers.isEmpty, Modifiers.render, entries, Anchor.render,
          Block.text, Block.body, body,
          Anchor.toList_raw sourceRead sourceWritable,
          Anchor.toList_raw targetRead targetWritable]
      · simpa [Sentence.entries] using agree

end Sentence

private theorem keys_eq_of_forall₂
    {read written : List (String × Value)}
    (agree : List.Forall₂ Sentence.EntryAgrees read written) :
    read.map Prod.fst = written.map Prod.fst := by
  induction agree with
  | nil =>
      rfl
  | cons first _ inductionHypothesis =>
      rw [List.map_cons, List.map_cons, first.1, inductionHypothesis]

namespace Modifiers

/-- A sentence with ascending keys has its own entries as modifiers. -/
theorem ofLine_text_of_ascending
    {sentence : Sentence}
    (ascending :
      sentence.entries.Pairwise fun left right => left.1 < right.1) :
    ofLine sentence.text = ⟨sentence.entries, ascending⟩ := by
  refine ext_get? ?_
  intro key
  rw [Sentence.get?_ofLine_text]
  exact lastValue?_entries ⟨sentence.entries, ascending⟩ key

end Modifiers

namespace Statement

/-- A statement that can be written is read from its line. -/
theorem exists_ofLine?_render
    {statement : Statement}
    (writable : statement.IsWritable) :
    ∃ read,
      ofLine? statement.render = some read ∧
        read.agrees statement = true := by
  obtain ⟨sentence, written, source, target, agree⟩ :=
    Sentence.exists_sentence_of_isWritable writable
  have ascending :
      sentence.entries.Pairwise fun left right => left.1 < right.1 := by
    have written := statement.modifiers.ascending
    rw [← List.pairwise_map (f := Prod.fst) (R := (· < ·))] at written ⊢
    rw [keys_eq_of_forall₂ agree]
    exact written
  refine ⟨⟨statement.source, statement.target, ⟨_, ascending⟩⟩, ?_, ?_⟩
  · simp only [ofLine?, ← written, Sentence.arrow?_text, Option.map_some,
      source, target, Modifiers.ofLine_text_of_ascending ascending]
  · have agrees : Modifiers.agrees ⟨_, ascending⟩ statement.modifiers = true :=
      Modifiers.agrees_iff_forall₂.mpr agree
    simp [Statement.agrees, agrees]

end Statement

end AnchorScript
