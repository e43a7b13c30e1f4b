import AnchorScript.Reader.Arrow

namespace AnchorScript.Reader

/-!
# What readers take from a text

Readers invent nothing. What a reader finds stands in the text that it reads,
together with the delimiters that it looked for, and what it leaves is the end
of that text. So whatever cannot occur on a line cannot occur in a part of it.
-/

theorem eq_of_quotedBody?
    {quote : Char}
    {text body after : List Char}
    (found : quotedBody? quote text = some (body, after)) :
    text = body ++ quote :: after := by
  fun_induction quotedBody? quote text generalizing body with
  | case1 =>
      simp at found
  | case2 =>
      simp only [Option.some.injEq, Prod.mk.injEq] at found
      simp [← found.1, ← found.2]
  | case3 =>
      simp at found
  | case4 =>
      simp at found
  | case5 escaped later notLineFeed notQuote inductionHypothesis =>
      simp only [Option.map_eq_some_iff, Prod.mk.injEq] at found
      obtain ⟨⟨inner, last⟩, foundLater, rfl, rfl⟩ := found
      simp [inductionHypothesis foundLater]
  | case6 first rest notQuote notEscape inductionHypothesis =>
      simp only [Option.map_eq_some_iff, Prod.mk.injEq] at found
      obtain ⟨⟨inner, last⟩, foundRest, rfl, rfl⟩ := found
      simp [inductionHypothesis foundRest]

private theorem eq_of_bareLiteral?
    {text literal after : List Char}
    (found : bareLiteral? text = some (literal, after)) :
    text = literal ++ after := by
  simp only [bareLiteral?] at found
  split at found
  · simp at found
  · simp only [Option.some.injEq, Prod.mk.injEq] at found
    rw [← found.1, ← found.2, List.takeWhile_append_dropWhile]

theorem eq_of_literalHere?
    {text literal after : List Char}
    (found : literalHere? text = some (literal, after)) :
    text = literal ++ after := by
  cases text with
  | nil =>
      simp [literalHere?] at found
  | cons first rest =>
      simp only [literalHere?] at found
      split at found
      · split at found
        · rename_i body later foundBody
          simp only [Option.some.injEq, Prod.mk.injEq] at found
          rw [← found.1, ← found.2, eq_of_quotedBody? foundBody]
          simp
        · exact eq_of_bareLiteral? found
      · exact eq_of_bareLiteral? found

private theorem parts_of_literal?
    {text literal after : List Char}
    (found : literal? text = some (literal, after)) :
    literal <:+: text ∧ after <:+ text := by
  have trimmed : Text.trimStart text <:+ text :=
    List.dropWhile_suffix Text.isBlank
  simp only [literal?] at found
  split at found
  · rename_i pair foundHere
    simp only [Option.some.injEq] at found
    subst found
    have split := eq_of_literalHere? foundHere
    constructor
    · have here : literal <+: Text.trimStart text := ⟨after, split.symm⟩
      exact here.isInfix.trans trimmed.isInfix
    · have behind : after <:+ Text.trimStart text := ⟨literal, split.symm⟩
      exact behind.trans trimmed
  · simp only [Option.map_eq_some_iff, Prod.mk.injEq] at found
    obtain ⟨blank, isLast, rfl, rfl⟩ := found
    obtain ⟨earlier, split⟩ := List.getLast?_eq_some_iff.mp isLast
    have last : [blank] <:+ text.takeWhile Text.isBlank :=
      ⟨earlier, split.symm⟩
    exact
      ⟨last.isInfix.trans (List.takeWhile_prefix Text.isBlank).isInfix,
        trimmed⟩

theorem parts_of_literalOfKey?
    {text literal after : List Char}
    (found : literalOfKey? text = some (literal, after)) :
    literal <:+: text ∧ after <:+ text := by
  have trimmed : Text.trimStart text <:+ text :=
    List.dropWhile_suffix Text.isBlank
  simp only [literalOfKey?] at found
  split at found
  · rename_i rest sign
    have behindSign : rest <:+ text := by
      rw [sign] at trimmed
      exact (List.suffix_cons _ _).trans trimmed
    obtain ⟨isPart, isEnd⟩ := parts_of_literal? found
    exact ⟨isPart.trans behindSign.isInfix, isEnd.trans behindSign⟩
  · simp at found

/-- The keys that are found are words, and the literals stand in the text. -/
theorem parts_of_mem_pairs
    {text : List Char}
    {pair : List Char × List Char}
    (member : pair ∈ pairs text) :
    pair.1 ≠ [] ∧
      (∀ character ∈ pair.1, isWord character = true) ∧
      pair.2 <:+: text := by
  fun_induction pairs text with
  | case1 =>
      simp at member
  | case2 first rest isWordFirst literal after found inductionHypothesis =>
      have afterKey : rest.dropWhile isWord <:+ first :: rest :=
        (List.dropWhile_suffix isWord).trans (List.suffix_cons _ _)
      obtain ⟨isPart, isEnd⟩ := parts_of_literalOfKey? found
      rcases List.mem_cons.mp member with isFirst | isLater
      · subst isFirst
        refine
          ⟨List.cons_ne_nil _ _, ?_, isPart.trans afterKey.isInfix⟩
        intro character inKey
        rcases List.mem_cons.mp inKey with isHead | inTail
        · exact isHead ▸ isWordFirst
        · exact List.all_eq_true.mp List.all_takeWhile character inTail
      · obtain ⟨nonempty, areWords, inLater⟩ :=
          inductionHypothesis isLater
        exact
          ⟨nonempty, areWords,
            inLater.trans (isEnd.trans afterKey).isInfix⟩
  | case3 first rest isWordFirst notFound inductionHypothesis =>
      obtain ⟨nonempty, areWords, inLater⟩ := inductionHypothesis member
      have afterWord : rest.dropWhile isWord <:+ first :: rest :=
        (List.dropWhile_suffix isWord).trans (List.suffix_cons _ _)
      exact ⟨nonempty, areWords, inLater.trans afterWord.isInfix⟩
  | case4 first rest notWord inductionHypothesis =>
      obtain ⟨nonempty, areWords, inLater⟩ := inductionHypothesis member
      exact
        ⟨nonempty, areWords,
          inLater.trans (List.suffix_cons _ _).isInfix⟩

theorem eq_of_balancedBody?
    {nested : Bool}
    {text body after : List Char}
    (found : balancedBody? nested text = some (body, after)) :
    text = body ++ ')' :: after := by
  induction text generalizing nested body with
  | nil =>
      simp [balancedBody?] at found
  | cons first rest inductionHypothesis =>
      simp only [balancedBody?] at found
      split at found
      · rename_i closes
        simp only [Option.some.injEq, Prod.mk.injEq] at found
        simp [← found.1, ← found.2, closes.1]
      · split at found
        · simp at found
        · simp only [Option.map_eq_some_iff, Prod.mk.injEq] at found
          obtain ⟨⟨inner, last⟩, foundRest, rfl, rfl⟩ := found
          simp [inductionHypothesis foundRest]

theorem eq_of_blockBody?
    {inside body after : List Char}
    (found : blockBody? inside = some (body, after)) :
    inside = body ++ ')' :: after := by
  simp only [blockBody?] at found
  split at found
  · rename_i pair foundBalanced
    simp only [Option.some.injEq] at found
    subst found
    exact eq_of_balancedBody? foundBalanced
  · exact (Text.cut?_eq_some_iff.mp found).1

theorem eq_of_insideBlock?
    {text inside : List Char}
    (found : insideBlock? text = some inside) :
    text = blockMark ++ inside := by
  simp only [insideBlock?] at found
  split at found
  · rename_i opened
    obtain ⟨rest, split⟩ := List.isPrefixOf_iff_prefix.mp opened
    simp only [Option.some.injEq] at found
    rw [← found, ← split, List.drop_left]
  · simp at found

/-- No block opens exactly where the text does not start with the mark. -/
theorem insideBlock?_eq_none_iff {text : List Char} :
    insideBlock? text = none ↔ ¬blockMark <+: text := by
  simp only [insideBlock?, List.isPrefixOf_iff_prefix, ite_eq_right_iff,
    reduceCtorEq, imp_false]

theorem infix_of_mem_blocks
    {text body : List Char}
    (member : body ∈ blocks text) :
    body <:+: text := by
  fun_induction blocks text with
  | case1 =>
      simp at member
  | case2 first rest notOpened inductionHypothesis =>
      exact (inductionHypothesis member).trans
        (List.suffix_cons _ _).isInfix
  | case3 first rest inside opened found after closed
      inductionHypothesis =>
      have text : first :: rest = blockMark ++ (found ++ ')' :: after) := by
        rw [eq_of_insideBlock? opened, eq_of_blockBody? closed]
      rw [text]
      rcases List.mem_cons.mp member with isFirst | isLater
      · exact isFirst ▸ ⟨blockMark, ')' :: after, by simp⟩
      · have behind : after <:+ blockMark ++ (found ++ ')' :: after) :=
          ⟨blockMark ++ found ++ [')'], by simp⟩
        exact (inductionHypothesis isLater).trans behind.isInfix
  | case4 =>
      simp at member

/-- What stands between brackets is not empty and has no closing bracket. -/
theorem eq_of_bracketed?
    {text inner after : List Char}
    (found : bracketed? text = some (inner, after)) :
    text = '[' :: inner ++ ']' :: after ∧ inner ≠ [] ∧ ']' ∉ inner := by
  unfold bracketed? at found
  split at found
  · rename_i rest
    split at found
    · simp at found
    · rename_i nonempty
      obtain ⟨split, unclosed⟩ := Text.cut?_eq_some_iff.mp found
      refine ⟨by simp [split], ?_, unclosed⟩
      rintro rfl
      exact nonempty after found
  · simp at found

/-- A text between brackets is read, whatever follows it. -/
theorem bracketed?_of_unclosed
    {inner : List Char}
    (nonempty : inner ≠ [])
    (unclosed : ']' ∉ inner)
    (rest : List Char) :
    bracketed? ('[' :: (inner ++ ']' :: rest)) = some (inner, rest) := by
  cases inner with
  | nil =>
      exact absurd rfl nonempty
  | cons first more =>
      have cut :
          Text.cut? ']' (first :: more ++ ']' :: rest) =
            some (first :: more, rest) :=
        Text.cut?_eq_some_iff.mpr ⟨rfl, unclosed⟩
      simp only [bracketed?, cut]

/-- What follows an arrow is the end of a text. -/
theorem suffix_of_afterArrow?
    {text after : List Char}
    (found : afterArrow? text = some after) :
    after <:+ text := by
  unfold afterArrow? at found
  split at found
  · cases found
    exact (List.suffix_cons _ _).trans (List.suffix_cons _ _)
  · cases found
    exact List.suffix_cons _ _
  · simp at found

theorem infix_of_bracketed?
    {text inner after : List Char}
    (found : bracketed? text = some (inner, after)) :
    inner <:+: text := by
  rw [(eq_of_bracketed? found).1]
  exact ⟨['['], ']' :: after, by simp⟩

private theorem parts_of_arrowHere?
    {text source target : List Char}
    (found : arrowHere? text = some (source, target)) :
    (source <:+: text ∧ ']' ∉ source) ∧
      target <:+: text ∧ ']' ∉ target := by
  unfold arrowHere? at found
  split at found
  · simp at found
  · rename_i first afterSource foundSource
    split at found
    · simp at found
    · rename_i beforeTarget foundArrow
      split at found
      · simp at found
      · rename_i second rest foundTarget
        cases found
        obtain ⟨split, _, sourceUnclosed⟩ := eq_of_bracketed? foundSource
        have behindSource : afterSource <:+ text :=
          ⟨'[' :: source ++ [']'], by simp [split]⟩
        have behindArrow : beforeTarget <:+ text :=
          (suffix_of_afterArrow? foundArrow).trans
            ((List.dropWhile_suffix Text.isBlank).trans behindSource)
        have atTarget : Text.trimStart beforeTarget <:+ text :=
          (List.dropWhile_suffix Text.isBlank).trans behindArrow
        exact
          ⟨⟨infix_of_bracketed? foundSource, sourceUnclosed⟩,
            (infix_of_bracketed? foundTarget).trans atTarget.isInfix,
            (eq_of_bracketed? foundTarget).2.2⟩

/-- Source and target stand in the text and have no closing bracket. -/
theorem parts_of_arrow?
    {text source target : List Char}
    (found : arrow? text = some (source, target)) :
    (source <:+: text ∧ ']' ∉ source) ∧
      target <:+: text ∧ ']' ∉ target := by
  induction text with
  | nil =>
      simp [arrow?] at found
  | cons first rest inductionHypothesis =>
      simp only [arrow?] at found
      split at found
      · rename_i ends foundHere
        cases found
        exact parts_of_arrowHere? foundHere
      · obtain ⟨⟨sourceInRest, sourceUnclosed⟩, targetInRest,
          targetUnclosed⟩ := inductionHypothesis found
        have isEnd : rest <:+: first :: rest :=
          (List.suffix_cons first rest).isInfix
        exact
          ⟨⟨sourceInRest.trans isEnd, sourceUnclosed⟩,
            targetInRest.trans isEnd, targetUnclosed⟩

end AnchorScript.Reader
