import AnchorScript.Proofs.Reader.BlockDivision
import AnchorScript.Proofs.Reader.WrittenStatement

namespace AnchorScript

/-!
# The content of quoted values

What stands between quotes belongs to the value of its key and to nothing else:
commas, equals signs, brackets and arrows in it are no delimiters. Parentheses
are the exception, since blocks are delimited before quotes are looked at, so
this holds where the parentheses of every quoted value are balanced. Where they
are not, a block can end inside the quotes or run past its own end, and then
values of other keys, on either side, are lost or changed.
-/

namespace Sentence

/-- What the reader takes for the body of a quoted literal has its quotes escaped. -/
theorem escaped_of_quotedBody?
    {quote : Char}
    {text body after : List Char}
    (found : Reader.quotedBody? quote text = some (body, after)) :
    Escaped quote body := by
  fun_induction Reader.quotedBody? quote text generalizing body with
  | case1 =>
      cases found
  | case2 =>
      cases found
      exact .nil
  | case3 =>
      cases found
  | case4 =>
      cases found
  | case5 escaped later notLineFeed notQuote inductionHypothesis =>
      obtain ⟨_, foundLater, same⟩ := Option.map_eq_some_iff.mp found
      cases same
      exact .escape notLineFeed (inductionHypothesis foundLater)
  | case6 first rest notQuote notBackslash inductionHypothesis =>
      obtain ⟨_, foundRest, same⟩ := Option.map_eq_some_iff.mp found
      cases same
      exact .plain notQuote notBackslash (inductionHypothesis foundRest)

/-- A text has its quotes escaped exactly when the reader takes it whole. -/
theorem escaped_iff {body : List Char} :
    Escaped '"' body ↔
      Reader.quotedBody? '"' (body ++ ['"']) = some (body, []) :=
  ⟨fun escaped => quotedBody?_of_escaped (by decide) escaped [],
    escaped_of_quotedBody?⟩

instance (body : List Char) : Decidable (Escaped '"' body) :=
  decidable_of_iff _ escaped_iff.symm

/-- A text that may stand between double quotes. -/
structure Content where
  text : List Char
  escaped : Escaped '"' text
  balanced : Balanced text

/-- The pair with a value in double quotes. -/
def Pair.quoting (pair : Pair) (content : Content) : Pair :=
  { pair with
    literal :=
      .quoted '"' content.text (Or.inl rfl) content.escaped
        content.balanced }

/-- The key of a pair as a text. -/
def Pair.name (pair : Pair) : String :=
  String.ofList pair.key.text

/-- The blocks of a sentence apart from one of their pairs. -/
structure Surroundings where
  earlier : List Block
  before : Blanks
  front : List Pair
  back : List Pair
  later : List Block

namespace Surroundings

/-- The blocks with the pair in its place. -/
def around (surroundings : Surroundings) (pair : Pair) : List Block :=
  surroundings.earlier ++
    ⟨surroundings.before, surroundings.front ++ pair :: surroundings.back⟩ ::
      surroundings.later

/-- All pairs before the place. -/
def ahead (surroundings : Surroundings) : List Pair :=
  surroundings.earlier.flatMap Block.pairs ++ surroundings.front

/-- All pairs behind the place. -/
def behind (surroundings : Surroundings) : List Pair :=
  surroundings.back ++ surroundings.later.flatMap Block.pairs

/-- The keys and values of the blocks, in the order of their pairs. -/
theorem entries_around
    (surroundings : Surroundings)
    (pair : Pair) :
    (surroundings.around pair).flatMap
        (fun block => block.pairs.map Pair.entry) =
      (surroundings.ahead ++ pair :: surroundings.behind).map
        Pair.entry := by
  simp [around, ahead, behind, List.map_flatMap, List.flatMap_append,
    List.flatMap_cons]

/-- A key has the last value behind the place, or that of the pair, or one before. -/
theorem lastValue?_around
    (surroundings : Surroundings)
    (pair : Pair)
    (key : String) :
    lastValue? key
        ((surroundings.around pair).flatMap
          fun block => block.pairs.map Pair.entry) =
      ((lastValue? key (surroundings.behind.map Pair.entry)).or
        (if pair.name = key then some pair.entry.2 else none)).or
        (lastValue? key (surroundings.ahead.map Pair.entry)) := by
  rw [entries_around, List.map_append, List.map_cons, lastValue?_append,
    lastValue?_cons]
  rfl

end Surroundings

/-- A key that no pair has is not written. -/
theorem lastValue?_eq_none_of_forall_ne
    {key : String}
    {pairs : List Pair}
    (absent : ∀ pair ∈ pairs, pair.name ≠ key) :
    lastValue? key (pairs.map Pair.entry) = none := by
  rw [lastValue?_eq_none_iff]
  intro entry member
  obtain ⟨pair, isPair, rfl⟩ := List.mem_map.mp member
  exact absent pair isPair

/-- The statement on the line of a sentence. -/
theorem ofLine?_eq_some (sentence : Sentence) :
    Statement.ofLine? (String.ofList sentence.text) =
      some
        ⟨Anchor.ofText sentence.source.text,
          Anchor.ofText sentence.target.text,
          Modifiers.ofLine sentence.text⟩ := by
  simp only [Statement.ofLine?, String.toList_ofList, arrow?_text,
    Option.map_some]

/--
Other content between the double quotes of the last pair with its key changes
the value of that key, which is the content as it is written, and nothing else.
-/
theorem ofLine?_requoted
    (sentence : Sentence)
    (surroundings : Surroundings)
    (pair : Pair)
    (old new : Content)
    (isThere : sentence.blocks = surroundings.around (pair.quoting old))
    (isLast : ∀ other ∈ surroundings.behind, other.name ≠ pair.name) :
    ∃ statement requoted,
      Statement.ofLine? (String.ofList sentence.text) = some statement ∧
        Statement.ofLine?
            (String.ofList
              { sentence with
                blocks := surroundings.around (pair.quoting new) }.text) =
          some requoted ∧
        requoted.source = statement.source ∧
        requoted.target = statement.target ∧
        (∀ key ≠ pair.name,
          requoted.modifier? key = statement.modifier? key) ∧
        requoted.modifier? pair.name =
          some (.text (String.ofList new.text)) := by
  let changed : Sentence :=
    { sentence with blocks := surroundings.around (pair.quoting new) }
  refine
    ⟨_, _, sentence.ofLine?_eq_some, changed.ofLine?_eq_some, rfl, rfl,
      ?others, ?itself⟩
  case others =>
    intro key isOther
    have notIts : pair.name ≠ key := Ne.symm isOther
    simp only [Statement.modifier?, get?_ofLine_text, entries, isThere, changed,
      Surroundings.lastValue?_around]
    rw [if_neg (show (pair.quoting new).name ≠ key from notIts),
      if_neg (show (pair.quoting old).name ≠ key from notIts)]
  case itself =>
    have notBehind := lastValue?_eq_none_of_forall_ne isLast
    have isContent :
        (pair.quoting new).entry.2 = .text (String.ofList new.text) :=
      Value.ofLiteral_of_quoted new.text
    simp only [Statement.modifier?, get?_ofLine_text, entries, changed,
      Surroundings.lastValue?_around, notBehind, isContent, Option.none_or]
    rw [if_pos (show (pair.quoting new).name = pair.name from rfl),
      Option.some_or]

/-- A block of two pairs, without the first one. -/
def beforeCount : Surroundings where
  earlier := []
  before := .space
  front := []
  back :=
    [⟨.space, ⟨['b'], by decide, List.forall_mem_singleton.mpr (by decide)⟩,
      .none, .none,
      .bare '1' [] (by decide) (by decide)
        (List.forall_mem_singleton.mpr (by decide)),
      .none⟩]
  later := []

/-- The first pair of the block, with whatever content. -/
def labelled (content : Content) : Pair :=
  ⟨.none, ⟨['a'], by decide, List.forall_mem_singleton.mpr (by decide)⟩,
    .none, .none,
    .quoted '"' content.text (Or.inl rfl) content.escaped content.balanced,
    .none⟩

/-- Two anchors and the block. -/
def counted (content : Content) : Sentence where
  source := ⟨['A'], by decide, by decide, by decide⟩
  beforeArrow := .space
  arrow := .hyphenated
  afterArrow := .space
  target := ⟨['B'], by decide, by decide, by decide⟩
  blocks := beforeCount.around (labelled content)

/-- One letter. -/
def letter : Content :=
  ⟨['x'], by decide, by decide⟩

/-- A text with everything in it that delimits something elsewhere. -/
def teeming : Content :=
  ⟨"\\\", b=2 ::mod(b=3) [C] -> [D]".toList,
    by decide +kernel, by decide +kernel⟩

/-- Delimiters of all kinds in the content leave the ends and the other key alone. -/
theorem ofLine?_requoted_teeming :
    String.ofList (counted letter).text =
        "[A] -> [B] ::mod(a=\"x\", b=1)" ∧
      String.ofList (counted teeming).text =
        "[A] -> [B] ::mod(a=\"\\\", b=2 ::mod(b=3) [C] -> [D]\", b=1)" ∧
      (counted letter).blocks =
        beforeCount.around ((labelled letter).quoting letter) ∧
      (∀ other ∈ beforeCount.behind, other.name ≠ (labelled letter).name) ∧
      ∃ statement requoted,
        Statement.ofLine? (String.ofList (counted letter).text) =
            some statement ∧
          Statement.ofLine? (String.ofList (counted teeming).text) =
            some requoted ∧
          requoted.source = statement.source ∧
          requoted.target = statement.target ∧
          (∀ key ≠ (labelled letter).name,
            requoted.modifier? key = statement.modifier? key) ∧
          requoted.modifier? (labelled letter).name =
            some (.text (String.ofList teeming.text)) := by
  have isLast :
      ∀ other ∈ beforeCount.behind, other.name ≠ (labelled letter).name := by
    decide
  refine ⟨by decide, by decide, rfl, isLast, ?_⟩
  exact ofLine?_requoted (counted letter) beforeCount (labelled letter)
    letter teeming rfl isLast

/-- The value that a key has on a line. -/
def valueOn? (key line : String) : Option Value :=
  (Statement.ofLine? line).bind fun statement => statement.modifier? key

/--
Parentheses in quotes do delimit blocks where they are not balanced. Of content
that is escaped as it should be, one that closes the block loses another key and
does not arrive itself. Balanced content is no better off next to an opening
parenthesis in its block or in an earlier one, nor is a later block that closes
and opens inside its quotes.
-/
theorem unbalanced_content_is_not_opaque :
    (Escaped '"' ['x'] ∧ Escaped '"' [')'] ∧
        valueOn? "b" "[A] -> [B] ::mod(a=\"x\", b=true)" =
          some (.flag true) ∧
        valueOn? "b" "[A] -> [B] ::mod(a=\")\", b=true)" = none ∧
        valueOn? "a" "[A] -> [B] ::mod(a=\")\", b=true)" =
          some (.text "")) ∧
      (Escaped '"' ['('] ∧ Escaped '"' ['(', ')'] ∧
        valueOn? "b" "[A] -> [B] ::mod(a=\"x\", b=\"(\")" =
          some (.text "(") ∧
        valueOn? "b" "[A] -> [B] ::mod(a=\"()\", b=\"(\")" = none) ∧
      (valueOn? "c" "[A] -> [B] ::mod(b=\"(\") ::mod(a=\"x\") ::mod(c=\")\")" =
          some (.text ")") ∧
        valueOn? "c" "[A] -> [B] ::mod(b=\"(\") ::mod(a=\"()\") ::mod(c=\")\")" =
          some (.text "")) ∧
      Escaped '"' ")::mod(a=5".toList ∧
        valueOn? "a" "[A] -> [B] ::mod(a=\"x\") ::mod(c=\")::mod(a=5\")" =
          some (.text "5\"") := by
  decide +kernel

end Sentence

end AnchorScript
