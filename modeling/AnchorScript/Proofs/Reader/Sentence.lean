import AnchorScript.Proofs.Modifiers.LastWrite
import AnchorScript.Proofs.Text.Pieces
import AnchorScript.Proofs.Text.Trimming
import AnchorScript.Reader.Arrow

namespace AnchorScript

/-!
# Sentences of the statement grammar

The grammar of a statement as data. A sentence consists of two bracketed texts
with an arrow between them and of blocks of pairs, with blanks wherever they may
stand, and every part carries the proof that it is well formed. Reading the text
of a sentence gives back its parts: the two anchors, and for every key the value
of its last pair.
-/

namespace Sentence

/--
The text between quotes: a quote only stands after a backslash, and a backslash
takes the next character with it, which is no line feed.
-/
inductive Escaped (quote : Char) : List Char → Prop where
  | nil : Escaped quote []
  | plain
      {first : Char}
      {rest : List Char}
      (notQuote : first ≠ quote)
      (notBackslash : first ≠ '\\')
      (tail : Escaped quote rest) :
      Escaped quote (first :: rest)
  | escape
      {escaped : Char}
      {rest : List Char}
      (notLineFeed : escaped ≠ '\n')
      (tail : Escaped quote rest) :
      Escaped quote ('\\' :: escaped :: rest)

/-- Parentheses are closed in the order in which they were opened, and not nested. -/
inductive Balanced : List Char → Prop where
  | nil : Balanced []
  | plain
      {first : Char}
      {rest : List Char}
      (notOpening : first ≠ '(')
      (notClosing : first ≠ ')')
      (tail : Balanced rest) :
      Balanced (first :: rest)
  | group
      {inner rest : List Char}
      (noOpening : '(' ∉ inner)
      (noClosing : ')' ∉ inner)
      (tail : Balanced rest) :
      Balanced ('(' :: inner ++ ')' :: rest)

/-- Blanks that may stand around a delimiter, possibly none. -/
structure Blanks where
  text : List Char
  allBlank : ∀ character ∈ text, Text.isBlank character = true

/-- What may stand in the brackets of an anchor. -/
structure Endpoint where
  text : List Char
  nonempty : text ≠ []
  unclosed : ']' ∉ text
  noBlock : ¬"::mod(".toList <:+: text

/-- The key of a pair: ASCII letters, ASCII digits and underscores. -/
structure Key where
  text : List Char
  nonempty : text ≠ []
  isWord :
    ∀ character ∈ text, character.isAlphanum = true ∨ character = '_'

/-- The literal of a pair, in quotes or without. -/
inductive Literal where
  | quoted
      (quote : Char)
      (body : List Char)
      (isQuote : quote = '"' ∨ quote = '\'')
      (escaped : Escaped quote body)
      (balanced : Balanced body)
  | bare
      (first : Char)
      (rest : List Char)
      (notBlank : Text.isBlank first = false)
      (notQuote : first ≠ '"' ∧ first ≠ '\'')
      (undelimited :
        ∀ character ∈ first :: rest,
          character ≠ ',' ∧ character ≠ '(' ∧ character ≠ ')')

/-- The literal as it is written, its quotes included. -/
def Literal.text : Literal → List Char
  | quoted quote body _ _ _ => quote :: body ++ [quote]
  | bare first rest _ _ _ => first :: rest

/-- A key with its literal. -/
structure Pair where
  before : Blanks
  key : Key
  beforeSign : Blanks
  afterSign : Blanks
  literal : Literal
  after : Blanks

/-- The pair as it is written, with the blanks up to the commas on its sides. -/
def Pair.text (pair : Pair) : List Char :=
  pair.before.text ++ pair.key.text ++ pair.beforeSign.text ++
    '=' :: pair.afterSign.text ++ pair.literal.text ++ pair.after.text

/-- The key with the value that its literal stands for. -/
def Pair.entry (pair : Pair) : String × Value :=
  (String.ofList pair.key.text, Value.ofLiteral pair.literal.text)

/-- A block of pairs, with the blanks in front of it. -/
structure Block where
  before : Blanks
  pairs : List Pair

/-- The pairs of a block with commas between them. -/
def Block.body (block : Block) : List Char :=
  [','].intercalate (block.pairs.map Pair.text)

/-- The block as it is written. -/
def Block.text (block : Block) : List Char :=
  block.before.text ++ "::mod(".toList ++ block.body ++ [')']

/-- The two signs for an arrow. -/
inductive Arrow where
  | hyphenated
  | drawn

/-- The arrow as it is written. -/
def Arrow.text : Arrow → List Char
  | hyphenated => ['-', '>']
  | drawn => ['→']

end Sentence

/-- A statement as it may be written on one line. -/
structure Sentence where
  source : Sentence.Endpoint
  beforeArrow : Sentence.Blanks
  arrow : Sentence.Arrow
  afterArrow : Sentence.Blanks
  target : Sentence.Endpoint
  blocks : List Sentence.Block

namespace Sentence

/-- The line of a sentence. -/
def text (sentence : Sentence) : List Char :=
  '[' :: sentence.source.text ++ ']' :: sentence.beforeArrow.text ++
    sentence.arrow.text ++ sentence.afterArrow.text ++
    '[' :: sentence.target.text ++ ']' :: sentence.blocks.flatMap Block.text

/-- The keys and values of all blocks, from left to right. -/
def entries (sentence : Sentence) : List (String × Value) :=
  sentence.blocks.flatMap fun block => block.pairs.map Pair.entry

/-- A text without parentheses is balanced. -/
theorem Balanced.of_not_mem
    {text : List Char}
    (noOpening : '(' ∉ text)
    (noClosing : ')' ∉ text) :
    Balanced text := by
  induction text with
  | nil =>
      exact .nil
  | cons first rest inductionHypothesis =>
      simp only [List.mem_cons, not_or] at noOpening noClosing
      exact .plain (Ne.symm noOpening.1) (Ne.symm noClosing.1)
        (inductionHypothesis noOpening.2 noClosing.2)

/-- Balanced texts after one another are balanced. -/
theorem Balanced.append
    {left right : List Char}
    (leftBalanced : Balanced left)
    (rightBalanced : Balanced right) :
    Balanced (left ++ right) := by
  induction leftBalanced with
  | nil =>
      exact rightBalanced
  | plain notOpening notClosing _ inductionHypothesis =>
      exact .plain notOpening notClosing inductionHypothesis
  | group noOpening noClosing _ inductionHypothesis =>
      have grouped := Balanced.group noOpening noClosing inductionHypothesis
      simpa only [List.append_assoc, List.cons_append] using grouped

/-- Inside a nested parenthesis everything counts up to its end. -/
private theorem balancedBody?_nested
    {inner : List Char}
    (noOpening : '(' ∉ inner)
    (noClosing : ')' ∉ inner)
    (rest : List Char) :
    Reader.balancedBody? true (inner ++ ')' :: rest) =
      (Reader.balancedBody? false rest).map
        fun found => (inner ++ ')' :: found.1, found.2) := by
  induction inner with
  | nil =>
      simp [Reader.balancedBody?]
  | cons first inner inductionHypothesis =>
      simp only [List.mem_cons, not_or] at noOpening noClosing
      have notOpening : first ≠ '(' := Ne.symm noOpening.1
      have notClosing : first ≠ ')' := Ne.symm noClosing.1
      simp [Reader.balancedBody?, notOpening, notClosing,
        inductionHypothesis noOpening.2 noClosing.2, Option.map_map,
        Function.comp_def]

/-- A balanced text is the body of the block that the next parenthesis closes. -/
theorem balancedBody?_of_balanced
    {body : List Char}
    (balanced : Balanced body)
    (rest : List Char) :
    Reader.balancedBody? false (body ++ ')' :: rest) = some (body, rest) := by
  induction balanced with
  | nil =>
      simp [Reader.balancedBody?]
  | plain notOpening notClosing _ inductionHypothesis =>
      simp [Reader.balancedBody?, notOpening, notClosing,
        inductionHypothesis]
  | @group inner tail noOpening noClosing _ inductionHypothesis =>
      have nested :=
        balancedBody?_nested noOpening noClosing (tail ++ ')' :: rest)
      rw [inductionHypothesis] at nested
      simp [Reader.balancedBody?, nested]

/-- A text with its quotes escaped is read up to its closing quote. -/
theorem quotedBody?_of_escaped
    {quote : Char}
    (notBackslash : quote ≠ '\\')
    {body : List Char}
    (escaped : Escaped quote body)
    (rest : List Char) :
    Reader.quotedBody? quote (body ++ quote :: rest) = some (body, rest) := by
  induction escaped with
  | nil =>
      unfold Reader.quotedBody?
      simp
  | plain notQuote notEscape _ inductionHypothesis =>
      unfold Reader.quotedBody?
      simp [notQuote, notEscape, inductionHypothesis]
  | escape notLineFeed _ inductionHypothesis =>
      unfold Reader.quotedBody?
      simp [Ne.symm notBackslash, notLineFeed, inductionHypothesis]

end Sentence

end AnchorScript
