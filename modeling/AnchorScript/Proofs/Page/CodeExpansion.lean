import AnchorScript.Page.Article
import AnchorScript.Proofs.Number.Rendering
import AnchorScript.Proofs.Reader.WellFormed
import Mathlib.Data.List.Forall2

namespace AnchorScript

/-!
# Line feeds in code

Code is written on one line, where an escape stands for a line feed, and is shown
on as many lines as it has. No escape is left in what is shown: those that are
written are replaced from left to right, and what replaces them never completes
another one. What was written has no line feed of its own, because no modifier
of a document that was read has one. So it is known from what is shown, and
different code is never shown alike.
-/

namespace CodeExample

/-- The two characters that stand for a line feed. -/
def lineFeedEscape : List Char :=
  ['\\', 'n']

/-- Code on one line, with an escape for each of its line feeds. -/
def contractLineFeeds (code : List Char) : List Char :=
  code.flatMap fun character =>
    if character = '\n' then lineFeedEscape else [character]

/--
No escape is left in the code, and with its line feeds replaced by escapes it is
the text that was written. No other code is like that.
-/
structure IsExpansionOf (written code : String) : Prop where
  complete : ¬lineFeedEscape <:+: code.toList
  reversible : String.ofList (contractLineFeeds code.toList) = written
  unique :
    ∀ other : String,
      ¬lineFeedEscape <:+: other.toList →
        String.ofList (contractLineFeeds other.toList) = written →
          other = code

/-- The statements of a document that carry its code examples. -/
def carriers (document : Document) : List Statement :=
  document.statements.filter fun statement =>
    statement.target.scope = some "CodeExample"

/-- The code examples of a document, each with the statement that carries it. -/
def carried (document : Document) : List (Statement × CodeExample) :=
  (carriers document).zip (allOf document)

theorem escape_prefix_cons_iff
    {first : Char}
    {rest : List Char} :
    lineFeedEscape <+: first :: rest ↔
      first = '\\' ∧ rest.head? = some 'n' := by
  rw [lineFeedEscape, List.cons_prefix_cons, eq_comm]
  cases rest with
  | nil => simp
  | cons second rest => simp [List.cons_prefix_cons, eq_comm]

/-- Escapes are replaced where they stand first. -/
theorem expandLineFeeds_escape_append (rest : List Char) :
    expandLineFeeds (lineFeedEscape ++ rest) =
      '\n' :: expandLineFeeds rest := by
  simp only [lineFeedEscape, List.cons_append, List.nil_append,
    expandLineFeeds]

/-- Where no escape stands first, one character is kept. -/
theorem expandLineFeeds_cons
    {first : Char}
    {rest : List Char}
    (noEscape : ¬lineFeedEscape <+: first :: rest) :
    expandLineFeeds (first :: rest) = first :: expandLineFeeds rest := by
  rw [expandLineFeeds]
  rintro later rfl rfl
  exact noEscape ⟨later, rfl⟩

theorem contractLineFeeds_lineFeed_cons (rest : List Char) :
    contractLineFeeds ('\n' :: rest) =
      lineFeedEscape ++ contractLineFeeds rest := by
  simp [contractLineFeeds]

theorem contractLineFeeds_cons
    {first : Char}
    (notLineFeed : first ≠ '\n')
    (rest : List Char) :
    contractLineFeeds (first :: rest) =
      first :: contractLineFeeds rest := by
  simp [contractLineFeeds, notLineFeed]

/-- An `n` stands first after the replacement only where it stood first before. -/
theorem head?_expandLineFeeds {text : List Char} :
    (expandLineFeeds text).head? = some 'n' ↔ text.head? = some 'n' := by
  fun_cases expandLineFeeds text with
  | case1 => rfl
  | case2 rest => simp
  | case3 first rest => simp

/-- An `n` stands first on the line only where it stands first in the code. -/
theorem head?_contractLineFeeds {code : List Char} :
    (contractLineFeeds code).head? = some 'n' ↔ code.head? = some 'n' := by
  cases code with
  | nil => rfl
  | cons first rest =>
      by_cases isLineFeed : first = '\n'
      · subst isLineFeed
        simp [contractLineFeeds_lineFeed_cons, lineFeedEscape]
      · simp [contractLineFeeds_cons isLineFeed]

/-- No escape is left, and none arises. -/
theorem escape_not_infix_expandLineFeeds (text : List Char) :
    ¬lineFeedEscape <:+: expandLineFeeds text := by
  fun_induction expandLineFeeds text with
  | case1 =>
      simp [lineFeedEscape]
  | case2 rest inductionHypothesis =>
      rw [List.infix_cons_iff, escape_prefix_cons_iff]
      simpa using inductionHypothesis
  | case3 first rest noEscape inductionHypothesis =>
      -- A kept backslash had no `n` behind it, and a replacement brings none there.
      rw [List.infix_cons_iff, escape_prefix_cons_iff, head?_expandLineFeeds,
        ← escape_prefix_cons_iff]
      rintro (⟨later, same⟩ | inRest)
      · cases same
        exact noEscape later rfl rfl
      · exact inductionHypothesis inRest

/-- A text without line feeds is what its expansion is on one line. -/
theorem contractLineFeeds_expandLineFeeds
    {text : List Char}
    (unbroken : '\n' ∉ text) :
    contractLineFeeds (expandLineFeeds text) = text := by
  fun_induction expandLineFeeds text with
  | case1 =>
      rfl
  | case2 rest inductionHypothesis =>
      simp only [List.mem_cons, not_or] at unbroken
      rw [contractLineFeeds_lineFeed_cons,
        inductionHypothesis unbroken.2.2]
      rfl
  | case3 first rest noEscape inductionHypothesis =>
      simp only [List.mem_cons, not_or] at unbroken
      rw [contractLineFeeds_cons (Ne.symm unbroken.1),
        inductionHypothesis unbroken.2]

/-- Code without escapes is the expansion of what it is on one line. -/
theorem expandLineFeeds_contractLineFeeds
    {code : List Char}
    (noEscape : ¬lineFeedEscape <:+: code) :
    expandLineFeeds (contractLineFeeds code) = code := by
  induction code with
  | nil =>
      rfl
  | cons first rest inductionHypothesis =>
      rw [List.infix_cons_iff, not_or] at noEscape
      have restExpanded := inductionHypothesis noEscape.2
      by_cases isLineFeed : first = '\n'
      · subst isLineFeed
        rw [contractLineFeeds_lineFeed_cons, expandLineFeeds_escape_append,
          restExpanded]
      · have notFirst :
            ¬lineFeedEscape <+: first :: contractLineFeeds rest := by
          rw [escape_prefix_cons_iff, head?_contractLineFeeds,
            ← escape_prefix_cons_iff]
          exact noEscape.1
        rw [contractLineFeeds_cons isLineFeed,
          expandLineFeeds_cons notFirst, restExpanded]

/-- What a text without line feeds is expanded to is its expansion. -/
theorem isExpansionOf_expandLineFeeds
    {written : String}
    (unbroken : '\n' ∉ written.toList) :
    IsExpansionOf written
      (String.ofList (expandLineFeeds written.toList)) := by
  constructor
  case complete =>
    rw [String.toList_ofList]
    exact escape_not_infix_expandLineFeeds written.toList
  case reversible =>
    rw [String.toList_ofList, contractLineFeeds_expandLineFeeds unbroken,
      String.ofList_toList]
  case unique =>
    rintro other noEscape rfl
    rw [String.toList_ofList, expandLineFeeds_contractLineFeeds noEscape,
      String.ofList_toList]

/-- Different texts have different expansions. -/
theorem IsExpansionOf.written_eq
    {first second code : String}
    (isFirst : IsExpansionOf first code)
    (isSecond : IsExpansionOf second code) :
    first = second :=
  isFirst.reversible.symm.trans isSecond.reversible

end CodeExample

/--
The text of a well-formed value has no line feed: a text stands on one line, and
a number is written without blanks.
-/
theorem Value.IsWellFormed.lineFeed_not_mem_render
    {value : Value}
    (wellFormed : value.IsWellFormed) :
    '\n' ∉ value.render.toList := by
  cases value with
  | flag truth =>
      cases truth <;> decide
  | number binary =>
      rw [Value.toList_render_number]
      intro member
      exact absurd (Value.isBlank_of_mem_text member) (by decide)
  | text written =>
      exact wellFormed

/-- Whatever is read from a well-formed statement as a text stands on one line. -/
theorem Statement.IsWellFormed.lineFeed_not_mem_textOr
    {statement : Statement}
    (wellFormed : statement.IsWellFormed)
    (key : String)
    {default : String}
    (unbroken : '\n' ∉ default.toList) :
    '\n' ∉ (statement.textOr key default).toList := by
  unfold Statement.textOr Statement.text?
  cases found : statement.modifier? key with
  | none =>
      exact unbroken
  | some value =>
      exact (wellFormed.of_modifier? found).lineFeed_not_mem_render

namespace CodeExample

/-- The examples of a well-formed document show the code that its statements were written with. -/
theorem forall₂_isExpansionOf
    {document : Document}
    (wellFormed : document.IsWellFormed) :
    List.Forall₂
      (fun statement codeExample =>
        IsExpansionOf (statement.textOr "code" "") codeExample.code)
      (carriers document) (allOf document) := by
  have examples : allOf document = (carriers document).map ofStatement := rfl
  rw [examples, List.forall₂_map_right_iff, List.forall₂_same]
  intro statement member
  have isStatement :=
    wellFormed.statements statement (List.mem_of_mem_filter member)
  exact isExpansionOf_expandLineFeeds
    (isStatement.lineFeed_not_mem_textOr "code" (by decide))

/--
The code of every example that is read from a source text has no escape left, and
gives back what was written for it. So code that was written differently, in one
source text or in two, is shown differently.
-/
theorem allOf_expanded (text : String) :
    List.Forall₂
        (fun statement codeExample =>
          IsExpansionOf (statement.textOr "code" "") codeExample.code)
        (carriers (Document.ofText text))
        (allOf (Document.ofText text)) ∧
      ∀ other : String,
        ∀ first ∈ carried (Document.ofText text),
          ∀ second ∈ carried (Document.ofText other),
            first.1.textOr "code" "" ≠ second.1.textOr "code" "" →
              first.2.code ≠ second.2.code := by
  have expanded
      (source : String) :=
    forall₂_isExpansionOf (Document.isWellFormed_ofText source)
  refine ⟨expanded text, ?_⟩
  intro other first isFirst second isSecond different same
  have firstExpanded := (List.forall₂_iff_zip.mp (expanded text)).2 isFirst
  have secondExpanded := (List.forall₂_iff_zip.mp (expanded other)).2 isSecond
  exact different ((same ▸ firstExpanded).written_eq secondExpanded)

/--
A backslash before an escape, an escape behind another one, and no code at all:
one backslash more makes other code.
-/
theorem allOf_expanded_adjacent :
    let text :=
      "[A] -> [CodeExample:a] ::mod(code=\"p\\\\n\\nq\")\n[B] -> [CodeExample:b]"
    let other := "[C] -> [CodeExample:c] ::mod(code=\"p\\n\\nq\")"
    let first : Statement × CodeExample :=
      (⟨Anchor.ofText "A".toList, Anchor.ofText "CodeExample:a".toList,
          Modifiers.ofList [("code", .text "p\\\\n\\nq")]⟩,
        ⟨"", "p\\\n\nq", "stl"⟩)
    let second : Statement × CodeExample :=
      (⟨Anchor.ofText "C".toList, Anchor.ofText "CodeExample:c".toList,
          Modifiers.ofList [("code", .text "p\\n\\nq")]⟩,
        ⟨"", "p\n\nq", "stl"⟩)
    (allOf (Document.ofText text)).map CodeExample.code = [first.2.code, ""] ∧
      first ∈ carried (Document.ofText text) ∧
      second ∈ carried (Document.ofText other) ∧
      first.1.textOr "code" "" ≠ second.1.textOr "code" "" ∧
      first.2.code ≠ second.2.code := by
  intro text other first second
  have isFirst : first ∈ carried (Document.ofText text) := by
    decide +kernel
  have isSecond : second ∈ carried (Document.ofText other) := by
    decide +kernel
  have different :
      first.1.textOr "code" "" ≠ second.1.textOr "code" "" := by
    decide +kernel
  exact
    ⟨by decide +kernel, isFirst, isSecond, different,
      (allOf_expanded text).2 other first isFirst second isSecond different⟩

end CodeExample

end AnchorScript
