import AnchorScript.Proofs.Reader.Extent
import AnchorScript.Proofs.Reader.Sentence

namespace AnchorScript

/-!
# Reading sentences

The readers of literals, pairs, blocks and arrows each take their part from the
front of a text and leave what follows it, so the lemmas here hold for whatever
follows. `ofLine?_text` puts them together: a line that is a sentence of the
grammar is read as that sentence.
-/

namespace Sentence

/-- A blank belongs to no key. -/
theorem isWord_of_isBlank
    {character : Char}
    (isBlank : Text.isBlank character = true) :
    Reader.isWord character = false := by
  simp only [Reader.isWord, Bool.or_eq_false_iff, decide_eq_false_iff_not]
  constructor
  · cases alphanumeric : character.isAlphanum with
    | false =>
        rfl
    | true =>
        have notBlank := Text.isBlank_of_isAlphanum alphanumeric
        exact absurd (isBlank.symm.trans notBlank) (by decide)
  · exact Text.ne_of_isBlank isBlank (by decide)

/-- A blank belongs to a literal without quotes. -/
theorem isBare_of_isBlank
    {character : Char}
    (isBlank : Text.isBlank character = true) :
    Reader.isBare character = true := by
  have notComma : character ≠ ',' := Text.ne_of_isBlank isBlank (by decide)
  have notClosing : character ≠ ')' := Text.ne_of_isBlank isBlank (by decide)
  simp [Reader.isBare, notComma, notClosing]

/-- Blanks behind a literal do not change what it stands for. -/
theorem ofLiteral_append_blanks
    (literal : List Char)
    (after : Blanks) :
    Value.ofLiteral (literal ++ after.text) = Value.ofLiteral literal := by
  rw [Value.ofLiteral, Value.ofLiteral,
    Text.trim_append_blanks literal after.allBlank]

/-! ## Literals and pairs -/

/--
A literal is read up to a comma or the end of the block. Without quotes it takes
the blanks behind it with it, which change nothing about its value.
-/
private theorem literalHere?_text
    (literal : Literal)
    (after : Blanks)
    {rest : List Char}
    (delimited : ∀ character, rest.head? = some character → character = ',') :
    ∃ read left,
      Reader.literalHere? (literal.text ++ (after.text ++ rest)) =
          some (read, left ++ rest) ∧
        Value.ofLiteral read = Value.ofLiteral literal.text ∧
        ∀ character ∈ left, Reader.isWord character = false := by
  cases literal with
  | quoted quote body isQuote escaped balanced =>
      have notBackslash : quote ≠ '\\' := by
        rcases isQuote with isDouble | isSingle
        · exact isDouble ▸ (by decide)
        · exact isSingle ▸ (by decide)
      refine ⟨quote :: body ++ [quote], after.text, ?_, rfl, ?_⟩
      · have read :=
          quotedBody?_of_escaped notBackslash escaped (after.text ++ rest)
        simp [Literal.text, Reader.literalHere?, isQuote, read]
      · intro character member
        exact isWord_of_isBlank (after.allBlank character member)
  | bare first more notBlank notQuote undelimited =>
      refine ⟨first :: more ++ after.text, [], ?_, ?_, by simp⟩
      · have allBare :
            ∀ character ∈ first :: more ++ after.text,
              Reader.isBare character = true := by
          intro character member
          rcases List.mem_append.mp member with inLiteral | isBlank
          · have plain := undelimited character inLiteral
            simp [Reader.isBare, plain.1, plain.2.2]
          · exact isBare_of_isBlank (after.allBlank character isBlank)
        have stop :
            ∀ character,
              rest.head? = some character →
              Reader.isBare character = false := by
          intro character isFirst
          rw [delimited character isFirst]
          decide
        have taken := Text.takeWhile_append_of_stop allBare stop
        have left := Text.dropWhile_append_of_stop allBare stop
        simp only [Literal.text, Reader.literalHere?, List.cons_append,
          notQuote.1, notQuote.2, or_self, if_false, Reader.bareLiteral?]
        simp only [List.cons_append, List.append_assoc] at taken left
        simp [taken, left]
      · exact ofLiteral_append_blanks (first :: more) after

private theorem trimStart_literal
    (literal : Literal)
    (rest : List Char) :
    Text.trimStart (literal.text ++ rest) = literal.text ++ rest := by
  cases literal with
  | quoted quote body isQuote escaped balanced =>
      refine Text.trimStart_cons ?_ _
      rcases isQuote with isDouble | isSingle
      · exact isDouble ▸ (by decide)
      · exact isSingle ▸ (by decide)
  | bare first more notBlank notQuote undelimited =>
      exact Text.trimStart_cons notBlank _

private theorem literal?_text
    (blanks : Blanks)
    (literal : Literal)
    (after : Blanks)
    {rest : List Char}
    (delimited : ∀ character, rest.head? = some character → character = ',') :
    ∃ read left,
      Reader.literal?
            (blanks.text ++ (literal.text ++ (after.text ++ rest))) =
          some (read, left ++ rest) ∧
        Value.ofLiteral read = Value.ofLiteral literal.text ∧
        ∀ character ∈ left, Reader.isWord character = false := by
  obtain ⟨read, left, found, sameValue, leftPlain⟩ :=
    literalHere?_text literal after delimited
  refine ⟨read, left, ?_, sameValue, leftPlain⟩
  simp only [Reader.literal?,
    Text.trimStart_blanks_append blanks.allBlank,
    trimStart_literal literal, found]

/-- Characters that belong to no key are passed over. -/
theorem pairs_append_of_not_word
    {between : List Char}
    (notWord : ∀ character ∈ between, Reader.isWord character = false)
    (rest : List Char) :
    Reader.pairs (between ++ rest) = Reader.pairs rest := by
  induction between with
  | nil =>
      rfl
  | cons first between inductionHypothesis =>
      have firstNotWord := notWord first List.mem_cons_self
      rw [List.cons_append, Reader.pairs]
      simp only [firstNotWord, Bool.false_eq_true, if_false]
      exact inductionHypothesis fun character member =>
        notWord character (List.mem_cons_of_mem _ member)

/-- A word that a literal follows is a key. -/
theorem pairs_append_of_literalOfKey?
    (key : Key)
    {tail literal after : List Char}
    (stop :
      ∀ character,
        tail.head? = some character → Reader.isWord character = false)
    (found : Reader.literalOfKey? tail = some (literal, after)) :
    Reader.pairs (key.text ++ tail) =
      (key.text, literal) :: Reader.pairs after := by
  obtain ⟨text, nonempty, isWord⟩ := key
  cases text with
  | nil =>
      exact absurd rfl nonempty
  | cons first rest =>
      have restWord :
          ∀ character ∈ rest, Reader.isWord character = true :=
        fun character member =>
          Reader.isWord_iff.mpr
            (isWord character (List.mem_cons_of_mem _ member))
      have firstWord := Reader.isWord_iff.mpr (isWord first List.mem_cons_self)
      have taken := Text.takeWhile_append_of_stop restWord stop
      have left := Text.dropWhile_append_of_stop restWord stop
      simp only [List.cons_append]
      rw [Reader.pairs]
      simp only [firstWord, if_true, taken]
      rw [← left] at found
      split
      · rename_i other later foundOther
        simp only [found, Option.some.injEq, Prod.mk.injEq] at foundOther
        rw [foundOther.1, foundOther.2]
      · rename_i foundNone
        simp [found] at foundNone

/--
A pair is read up to a comma or the end of the block: its key, and a literal
with the value of its own.
-/
theorem pairs_text_append
    (pair : Pair)
    (rest : List Char)
    (delimited : ∀ character, rest.head? = some character → character = ',') :
    ∃ literal,
      Reader.pairs (pair.text ++ rest) =
          (pair.key.text, literal) :: Reader.pairs rest ∧
        Value.ofLiteral literal = Value.ofLiteral pair.literal.text := by
  obtain ⟨literal, left, found, sameValue, leftPlain⟩ :=
    literal?_text pair.afterSign pair.literal pair.after delimited
  refine ⟨literal, ?_, sameValue⟩
  let tail :=
    pair.beforeSign.text ++
      '=' :: (pair.afterSign.text ++
        (pair.literal.text ++ (pair.after.text ++ rest)))
  have split :
      pair.text ++ rest = pair.before.text ++ (pair.key.text ++ tail) := by
    simp [Pair.text, tail]
  have stop :
      ∀ character,
        tail.head? = some character → Reader.isWord character = false := by
    intro character isFirst
    cases blanks : pair.beforeSign.text with
    | nil =>
        simp only [tail, blanks, List.nil_append, List.head?_cons,
          Option.some.injEq] at isFirst
        exact isFirst ▸ (by decide)
    | cons blank others =>
        simp only [tail, blanks, List.cons_append, List.head?_cons,
          Option.some.injEq] at isFirst
        refine isWord_of_isBlank (pair.beforeSign.allBlank character ?_)
        simp [blanks, isFirst]
  have foundLiteral :
      Reader.literalOfKey? tail = some (literal, left ++ rest) := by
    have trimmed :
        Text.trimStart tail =
          '=' :: (pair.afterSign.text ++
            (pair.literal.text ++ (pair.after.text ++ rest))) := by
      rw [Text.trimStart_blanks_append pair.beforeSign.allBlank]
      exact Text.trimStart_cons (by decide) _
    simp only [Reader.literalOfKey?, trimmed, found]
  have beforePlain :
      ∀ character ∈ pair.before.text, Reader.isWord character = false :=
    fun character member =>
      isWord_of_isBlank (pair.before.allBlank character member)
  rw [split, pairs_append_of_not_word beforePlain,
    pairs_append_of_literalOfKey? pair.key stop foundLiteral,
    pairs_append_of_not_word leftPlain]

/-- What modifiers are made of: keys and values, in the order of the pairs. -/
private theorem entries_of_pairs
    (pairs : List Pair) :
    (Reader.pairs ([','].intercalate (pairs.map Pair.text))).map
        (fun read => (String.ofList read.1, Value.ofLiteral read.2)) =
      pairs.map Pair.entry := by
  induction pairs with
  | nil =>
      rw [List.map_nil, List.intercalate_nil, Reader.pairs]
      rfl
  | cons pair rest inductionHypothesis =>
      by_cases isLast : rest = []
      · subst isLast
        obtain ⟨literal, found, sameValue⟩ :=
          pairs_text_append pair [] (by simp)
        rw [List.append_nil] at found
        rw [List.map_cons, List.map_nil, List.intercalate_singleton, found,
          Reader.pairs]
        simp [Pair.entry, sameValue]
      · have othersNonempty : rest.map Pair.text ≠ [] := by
          simpa using isLast
        obtain ⟨literal, found, sameValue⟩ :=
          pairs_text_append pair
            ([','] ++ [','].intercalate (rest.map Pair.text)) (by simp)
        have commaPlain :
            ∀ character ∈ [','], Reader.isWord character = false :=
          List.forall_mem_singleton.mpr (by decide)
        rw [List.map_cons, List.intercalate_cons_of_ne_nil othersNonempty,
          List.append_assoc, found, pairs_append_of_not_word commaPlain]
        simp [inductionHypothesis, Pair.entry, sameValue]

/-- The body of a block is read as its keys and values. -/
theorem ofBlock_body (block : Block) :
    Modifiers.ofBlock block.body =
      Modifiers.ofList (block.pairs.map Pair.entry) := by
  rw [Modifiers.ofBlock, Block.body, entries_of_pairs]

/-! ## Blocks -/

private theorem Blanks.balanced (blanks : Blanks) :
    Balanced blanks.text := by
  refine .of_not_mem ?_ ?_ <;> intro member
  · exact Text.ne_of_isBlank (blanks.allBlank _ member) (by decide) rfl
  · exact Text.ne_of_isBlank (blanks.allBlank _ member) (by decide) rfl

private theorem Key.balanced (key : Key) :
    Balanced key.text := by
  refine .of_not_mem ?_ ?_ <;> intro member
  · exact absurd (key.isWord _ member) (by decide)
  · exact absurd (key.isWord _ member) (by decide)

private theorem Literal.balanced (literal : Literal) :
    Balanced literal.text := by
  cases literal with
  | quoted quote body isQuote escaped balanced =>
      have notParenthesis : quote ≠ '(' ∧ quote ≠ ')' := by
        rcases isQuote with isDouble | isSingle
        · exact isDouble ▸ (by decide)
        · exact isSingle ▸ (by decide)
      have closing : Balanced [quote] :=
        .plain notParenthesis.1 notParenthesis.2 .nil
      exact .plain notParenthesis.1 notParenthesis.2
        (balanced.append closing)
  | bare first rest notBlank notQuote undelimited =>
      refine .of_not_mem ?_ ?_ <;> intro member
      · exact (undelimited _ member).2.1 rfl
      · exact (undelimited _ member).2.2 rfl

private theorem Pair.balanced (pair : Pair) :
    Balanced pair.text := by
  have sign : Balanced ['='] := .plain (by decide) (by decide) .nil
  have parts :=
    pair.before.balanced.append
      (pair.key.balanced.append
        (pair.beforeSign.balanced.append
          (sign.append
            (pair.afterSign.balanced.append
              (pair.literal.balanced.append pair.after.balanced)))))
  simpa [Pair.text] using parts

private theorem Block.balanced (block : Block) :
    Balanced block.body := by
  rw [Block.body]
  induction block.pairs with
  | nil =>
      exact .nil
  | cons pair rest inductionHypothesis =>
      by_cases isLast : rest = []
      · subst isLast
        rw [List.map_cons, List.map_nil, List.intercalate_singleton]
        exact pair.balanced
      · have othersNonempty : rest.map Pair.text ≠ [] := by
          simpa using isLast
        have comma : Balanced [','] := .plain (by decide) (by decide) .nil
        rw [List.map_cons, List.intercalate_cons_of_ne_nil othersNonempty,
          List.append_assoc]
        exact pair.balanced.append (comma.append inductionHypothesis)

private theorem blocks_cons_of_not_prefix
    {first : Char}
    {rest : List Char}
    (noBlock : ¬Reader.blockMark <+: first :: rest) :
    Reader.blocks (first :: rest) = Reader.blocks rest := by
  have notInside : Reader.insideBlock? (first :: rest) = none :=
    Reader.insideBlock?_eq_none_iff.mpr noBlock
  rw [Reader.blocks]
  split
  · rfl
  · rename_i inside found
    simp [notInside] at found

private theorem blocks_append_of_not_mem
    {between : List Char}
    (noColon : ':' ∉ between)
    (rest : List Char) :
    Reader.blocks (between ++ rest) = Reader.blocks rest := by
  induction between with
  | nil =>
      rfl
  | cons first between inductionHypothesis =>
      simp only [List.mem_cons, not_or] at noColon
      have notOpened :
          ¬Reader.blockMark <+: first :: (between ++ rest) := by
        rw [Reader.blockMark, List.cons_prefix_cons]
        exact fun opened => noColon.1 opened.1
      rw [List.cons_append, blocks_cons_of_not_prefix notOpened,
        inductionHypothesis noColon.2]

/-- What a text starts with stands before a character that it does not have. -/
private theorem prefix_of_prefix_append
    {opening text rest : List Char}
    {stop : Char}
    (absent : stop ∉ opening)
    (isOpening : opening <+: text ++ stop :: rest) :
    opening <+: text := by
  induction opening generalizing text with
  | nil =>
      exact List.nil_prefix
  | cons first opening inductionHypothesis =>
      simp only [List.mem_cons, not_or] at absent
      cases text with
      | nil =>
          rw [List.nil_append, List.cons_prefix_cons] at isOpening
          exact absurd isOpening.1.symm absent.1
      | cons head text =>
          rw [List.cons_append, List.cons_prefix_cons] at isOpening
          rw [List.cons_prefix_cons]
          exact ⟨isOpening.1, inductionHypothesis absent.2 isOpening.2⟩

/-- A text up to a closing bracket opens no block if it holds none. -/
private theorem blocks_append_of_not_infix
    {text : List Char}
    (noBlock : ¬Reader.blockMark <:+: text)
    (rest : List Char) :
    Reader.blocks (text ++ ']' :: rest) = Reader.blocks rest := by
  induction text with
  | nil =>
      have bracket : ¬Reader.blockMark <+: ']' :: rest := by
        rw [Reader.blockMark, List.cons_prefix_cons]
        exact fun opened => absurd opened.1 (by decide)
      exact blocks_cons_of_not_prefix bracket
  | cons first text inductionHypothesis =>
      have notOpened :
          ¬Reader.blockMark <+: first :: (text ++ ']' :: rest) := by
        intro opened
        exact noBlock
          (prefix_of_prefix_append (by decide) opened).isInfix
      rw [List.cons_append, blocks_cons_of_not_prefix notOpened]
      exact inductionHypothesis fun later => noBlock (List.infix_cons later)

/-- A block is read up to its closing parenthesis, wherever it stands. -/
theorem blocks_text_append
    (block : Block)
    (rest : List Char) :
    Reader.blocks (block.text ++ rest) = block.body :: Reader.blocks rest := by
  have noColon : ':' ∉ block.before.text := fun member =>
    Text.ne_of_isBlank (block.before.allBlank _ member) (by decide) rfl
  have split :
      block.text ++ rest =
        block.before.text ++
          (Reader.blockMark ++ (block.body ++ ')' :: rest)) := by
    simp [Block.text, Reader.blockMark]
  have opened :
      Reader.insideBlock?
          (Reader.blockMark ++ (block.body ++ ')' :: rest)) =
        some (block.body ++ ')' :: rest) := by
    have isOpening :
        Reader.blockMark.isPrefixOf
            (Reader.blockMark ++ (block.body ++ ')' :: rest)) = true :=
      List.isPrefixOf_iff_prefix.mpr (List.prefix_append _ _)
    rw [Reader.insideBlock?, if_pos isOpening, List.drop_left]
  have closed :
      Reader.blockBody? (block.body ++ ')' :: rest) =
        some (block.body, rest) := by
    simp only [Reader.blockBody?,
      balancedBody?_of_balanced block.balanced]
  rw [split, blocks_append_of_not_mem noColon]
  simp only [Reader.blockMark, List.cons_append, List.nil_append] at opened ⊢
  rw [Reader.blocks]
  split
  · rename_i notOpened
    simp [opened] at notOpened
  · rename_i inside foundInside
    simp only [opened, Option.some.injEq] at foundInside
    subst foundInside
    split
    · rename_i body after foundBody
      simp only [closed, Option.some.injEq, Prod.mk.injEq] at foundBody
      rw [foundBody.1, foundBody.2]
    · rename_i notClosed
      simp [closed] at notClosed

private theorem blocks_flatMap_text (blocks : List Block) :
    Reader.blocks (blocks.flatMap Block.text) = blocks.map Block.body := by
  induction blocks with
  | nil =>
      rw [List.flatMap_nil, Reader.blocks]
      rfl
  | cons block rest inductionHypothesis =>
      rw [List.flatMap_cons, blocks_text_append, inductionHypothesis,
        List.map_cons]

/-- The blocks of a sentence are found, and no others. -/
theorem blocks_text (sentence : Sentence) :
    Reader.blocks sentence.text = sentence.blocks.map Block.body := by
  have noColon
      (blanks : Blanks) :
      ':' ∉ blanks.text := fun member =>
    Text.ne_of_isBlank (blanks.allBlank _ member) (by decide) rfl
  have arrowNoColon : ':' ∉ sentence.arrow.text := by
    cases sentence.arrow <;> decide
  have middleNoColon :
      ':' ∉ sentence.beforeArrow.text ++ sentence.arrow.text ++
        sentence.afterArrow.text ++ ['['] := by
    simp only [List.mem_append, not_or]
    exact ⟨⟨⟨noColon _, arrowNoColon⟩, noColon _⟩, by decide⟩
  have openingNoColon : ':' ∉ ['['] := by decide
  have split :
      sentence.text =
        ['['] ++ (sentence.source.text ++
          ']' :: ((sentence.beforeArrow.text ++ sentence.arrow.text ++
            sentence.afterArrow.text ++ ['[']) ++
            (sentence.target.text ++
              ']' :: sentence.blocks.flatMap Block.text))) := by
    simp [text]
  rw [split, blocks_append_of_not_mem openingNoColon,
    blocks_append_of_not_infix sentence.source.noBlock,
    blocks_append_of_not_mem middleNoColon,
    blocks_append_of_not_infix sentence.target.noBlock,
    blocks_flatMap_text]

/-! ## Anchors and the whole sentence -/

private theorem bracketed?_endpoint
    (endpoint : Endpoint)
    (rest : List Char) :
    Reader.bracketed? ('[' :: (endpoint.text ++ ']' :: rest)) =
      some (endpoint.text, rest) :=
  Reader.bracketed?_of_unclosed endpoint.nonempty endpoint.unclosed rest

/-- An arrow is read, whatever follows it. -/
theorem afterArrow?_text
    (arrow : Arrow)
    (rest : List Char) :
    Reader.afterArrow? (Text.trimStart (arrow.text ++ rest)) = some rest := by
  cases arrow with
  | hyphenated =>
      have hyphen : Text.isBlank '-' = false := by decide
      have kept := Text.trimStart_cons hyphen ('>' :: rest)
      simp only [Arrow.text, List.cons_append, List.nil_append, kept,
        Reader.afterArrow?]
  | drawn =>
      have sign : Text.isBlank '→' = false := by decide
      have kept := Text.trimStart_cons sign rest
      simp only [Arrow.text, List.cons_append, List.nil_append, kept,
        Reader.afterArrow?]

/-- The arrow form of a sentence is the one at its front. -/
theorem arrow?_text (sentence : Sentence) :
    Reader.arrow? sentence.text =
      some (sentence.source.text, sentence.target.text) := by
  let blocks := sentence.blocks.flatMap Block.text
  let target := '[' :: (sentence.target.text ++ ']' :: blocks)
  have split :
      sentence.text =
        '[' :: (sentence.source.text ++
          ']' :: (sentence.beforeArrow.text ++
            (sentence.arrow.text ++
              (sentence.afterArrow.text ++ target)))) := by
    simp [text, target, blocks]
  have here :
      Reader.arrowHere? sentence.text =
        some (sentence.source.text, sentence.target.text) := by
    have kept : Text.trimStart target = target :=
      Text.trimStart_cons (by decide) _
    simp only [split, Reader.arrowHere?, bracketed?_endpoint,
      Text.trimStart_blanks_append sentence.beforeArrow.allBlank,
      afterArrow?_text,
      Text.trimStart_blanks_append sentence.afterArrow.allBlank,
      kept]
    simp only [target, bracketed?_endpoint]
  rw [split] at here ⊢
  simp only [Reader.arrow?, here]

private theorem get?_foldl_merge
    (blocks : List Block)
    (built : Modifiers)
    (key : String) :
    ((blocks.map Block.body).foldl
        (fun built block => built.merge (Modifiers.ofBlock block))
        built).get? key =
      (lastValue? key
        (blocks.flatMap fun block => block.pairs.map Pair.entry)).or
          (built.get? key) := by
  induction blocks generalizing built with
  | nil =>
      rfl
  | cons block rest inductionHypothesis =>
      rw [List.map_cons, List.foldl_cons, inductionHypothesis,
        Modifiers.get?_merge, ofBlock_body, Modifiers.get?_ofList,
        List.flatMap_cons, lastValue?_append, Option.or_assoc]

/-- The modifiers of a sentence have the last value of every key. -/
theorem get?_ofLine_text
    (sentence : Sentence)
    (key : String) :
    (Modifiers.ofLine sentence.text).get? key =
      lastValue? key sentence.entries := by
  rw [Modifiers.ofLine, blocks_text, get?_foldl_merge, Modifiers.get?_empty,
    Option.or_none]
  rfl

/--
A sentence of the grammar is a statement: its ends are the anchors that stand in
its brackets, and the value of every key is that of the literal in the last pair
with the key over all blocks. A key that no pair has is absent.
-/
theorem ofLine?_text (sentence : Sentence) :
    ∃ statement,
      Statement.ofLine? (String.ofList sentence.text) = some statement ∧
        statement.source = Anchor.ofText sentence.source.text ∧
        statement.target = Anchor.ofText sentence.target.text ∧
        ∀ key,
          statement.modifier? key = lastValue? key sentence.entries := by
  refine
    ⟨⟨Anchor.ofText sentence.source.text, Anchor.ofText sentence.target.text,
      Modifiers.ofLine sentence.text⟩, ?_, rfl, rfl, get?_ofLine_text sentence⟩
  simp only [Statement.ofLine?, String.toList_ofList, arrow?_text,
    Option.map_some]

end Sentence

end AnchorScript
