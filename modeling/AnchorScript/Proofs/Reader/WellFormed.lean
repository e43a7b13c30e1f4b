import AnchorScript.Proofs.Modifiers.LastWrite
import AnchorScript.Proofs.Number.Comparison
import AnchorScript.Proofs.Reader.Extent
import AnchorScript.Proofs.Text.Pieces
import AnchorScript.Proofs.Text.Trimming
import AnchorScript.Reader.Reading

namespace AnchorScript

/-!
# What every reading satisfies

Whatever the text, what is read from it is well formed. Logical lines have no
line feed, because they are joined from physical ones; every part of a statement
is a part of its line, so it has none either. Numbers come from numerals, so
every value, and with it every document that was read, agrees with itself.
-/

/-- The anchor is what its own trimmed text reads as, and that text could stand in brackets. -/
structure Anchor.IsWellFormed (anchor : Anchor) : Prop where
  reread : Anchor.ofText anchor.raw.toList = anchor
  trimmed : Text.trim anchor.raw.toList = anchor.raw.toList
  unclosed : ']' ∉ anchor.raw.toList
  unbroken : '\n' ∉ anchor.raw.toList
  withScope :
    ∀ scope,
      anchor.scope = some scope →
      ':' ∉ scope.toList ∧ anchor.raw = scope ++ ":" ++ anchor.name
  withoutScope : anchor.scope = none → anchor.raw = anchor.name

/-- A number is a number, and a text stands on one line. -/
def Value.IsWellFormed : Value → Prop
  | .flag _ => True
  | .number binary => binary.isNaN = false
  | .text written => '\n' ∉ written.toList

/-- The key is a word of ASCII characters, and the value is well formed. -/
def IsWellFormedEntry (entry : String × Value) : Prop :=
  (entry.1.toList ≠ [] ∧
      ∀ character ∈ entry.1.toList,
        character.isAlphanum = true ∨ character = '_') ∧
    entry.2.IsWellFormed

structure Statement.IsWellFormed (statement : Statement) : Prop where
  source : statement.source.IsWellFormed
  target : statement.target.IsWellFormed
  modifiers : ∀ entry ∈ statement.modifiers.entries, IsWellFormedEntry entry

/-- What is looked up in a well-formed statement is well formed. -/
theorem Statement.IsWellFormed.of_modifier?
    {statement : Statement}
    (wellFormed : statement.IsWellFormed)
    {key : String}
    {value : Value}
    (found : statement.modifier? key = some value) :
    value.IsWellFormed :=
  (wellFormed.modifiers (key, value) (Modifiers.mem_entries_iff.mpr found)).2

structure Document.IsWellFormed (document : Document) : Prop where
  statements : ∀ statement ∈ document.statements, statement.IsWellFormed
  comments :
    ∀ comment ∈ document.comments,
      Text.trim comment.toList = comment.toList ∧ '\n' ∉ comment.toList

theorem Anchor.isWellFormed_ofText
    {text : List Char}
    (unclosed : ']' ∉ text)
    (unbroken : '\n' ∉ text) :
    (Anchor.ofText text).IsWellFormed := by
  have part : Text.trim text ⊆ text := (Text.trim_infix text).subset
  have raw : (Anchor.ofText text).raw = String.ofList (Text.trim text) := by
    simp only [Anchor.ofText]
    split <;> rfl
  have written : (Anchor.ofText text).raw.toList = Text.trim text := by
    rw [raw, String.toList_ofList]
  constructor
  case reread =>
    rw [written]
    simp only [Anchor.ofText, Text.trim_trim]
  case trimmed =>
    rw [written, Text.trim_trim]
  case unclosed =>
    rw [written]
    exact fun member => unclosed (part member)
  case unbroken =>
    rw [written]
    exact fun member => unbroken (part member)
  case withScope =>
    intro scope isScope
    rw [raw]
    simp only [Anchor.ofText] at isScope ⊢
    split at isScope
    · rename_i before after found
      obtain ⟨split, noColon⟩ := Text.cut?_eq_some_iff.mp found
      cases isScope
      refine ⟨by simpa using noColon, ?_⟩
      rw [split, ← String.toList_inj]
      simp
    · cases isScope
  case withoutScope =>
    intro noScope
    rw [raw]
    simp only [Anchor.ofText] at noScope ⊢
    split at noScope
    · cases noScope
    · rfl

theorem Value.isWellFormed_ofLiteral
    {literal : List Char}
    (unbroken : '\n' ∉ literal) :
    (Value.ofLiteral literal).IsWellFormed := by
  have part : Reader.unquote (Text.trim literal) <:+: literal := by
    refine List.IsInfix.trans ?_ (Text.trim_infix literal)
    unfold Reader.unquote
    split
    · exact (List.dropLast_prefix _).isInfix.trans
        (List.drop_suffix 1 _).isInfix
    · exact List.infix_refl _
  unfold Value.ofLiteral
  simp only
  split
  · trivial
  · split
    · trivial
    · split
      · rename_i numeral _
        exact Binary64.isNaN_ofNumeral numeral
      · rw [IsWellFormed, String.toList_ofList]
        exact fun member => unbroken (part.subset member)

namespace Modifiers

/-- An entry after writes is one of those written or was there before. -/
theorem mem_entries_insertAll
    {modifiers : Modifiers}
    {pairs : List (String × Value)}
    {entry : String × Value}
    (member : entry ∈ (modifiers.insertAll pairs).entries) :
    entry ∈ pairs ∨ entry ∈ modifiers.entries := by
  induction pairs generalizing modifiers with
  | nil =>
      exact Or.inr member
  | cons pair rest inductionHypothesis =>
      rcases inductionHypothesis member with inRest | before
      · exact Or.inl (List.mem_cons_of_mem _ inRest)
      · rcases mem_writeEntry before with isPair | earlier
        · exact Or.inl (isPair ▸ List.mem_cons_self)
        · exact Or.inr earlier

private theorem isWellFormedEntry_ofBlock
    {block : List Char}
    (unbroken : '\n' ∉ block)
    {entry : String × Value}
    (member : entry ∈ (ofBlock block).entries) :
    IsWellFormedEntry entry := by
  rcases mem_entries_insertAll member with isWritten | before
  · obtain ⟨pair, isPair, rfl⟩ := List.mem_map.mp isWritten
    obtain ⟨nonempty, areWords, part⟩ := Reader.parts_of_mem_pairs isPair
    refine ⟨?_, Value.isWellFormed_ofLiteral ?_⟩
    · simpa [Reader.isWord_iff] using And.intro nonempty areWords
    · exact fun inLiteral => unbroken (part.subset inLiteral)
  · cases before

/-- The entries of a line are those of its blocks. -/
theorem isWellFormedEntry_ofLine
    {line : List Char}
    (unbroken : '\n' ∉ line)
    {entry : String × Value}
    (member : entry ∈ (ofLine line).entries) :
    IsWellFormedEntry entry := by
  have merged
      {blocks : List (List Char)}
      {built : Modifiers}
      (inLine : ∀ block ∈ blocks, '\n' ∉ block)
      (builtWell : ∀ earlier ∈ built.entries, IsWellFormedEntry earlier) :
      ∀ later ∈
          (blocks.foldl
            (fun built block => built.merge (ofBlock block)) built).entries,
        IsWellFormedEntry later := by
    induction blocks generalizing built with
    | nil =>
        exact builtWell
    | cons block rest inductionHypothesis =>
        apply inductionHypothesis fun later isLater =>
          inLine later (List.mem_cons_of_mem _ isLater)
        intro earlier isEntry
        rcases mem_entries_insertAll isEntry with inBlock | inBuilt
        · exact isWellFormedEntry_ofBlock
            (inLine block List.mem_cons_self) inBlock
        · exact builtWell earlier inBuilt
  refine merged ?_ ?_ entry member
  · intro block isBlock inBlock
    exact unbroken ((Reader.infix_of_mem_blocks isBlock).subset inBlock)
  · intro earlier isEntry
    cases isEntry

end Modifiers

theorem Statement.isWellFormed_of_ofLine?
    {line : String}
    {statement : Statement}
    (unbroken : '\n' ∉ line.toList)
    (found : Statement.ofLine? line = some statement) :
    statement.IsWellFormed := by
  obtain ⟨⟨source, target⟩, ends, rfl⟩ := Option.map_eq_some_iff.mp found
  obtain ⟨⟨sourcePart, sourceUnclosed⟩, targetPart, targetUnclosed⟩ :=
    Reader.parts_of_arrow? ends
  constructor
  case source =>
    exact Anchor.isWellFormed_ofText sourceUnclosed
      fun member => unbroken (sourcePart.subset member)
  case target =>
    exact Anchor.isWellFormed_ofText targetUnclosed
      fun member => unbroken (targetPart.subset member)
  case modifiers =>
    exact fun _ => Modifiers.isWellFormedEntry_ofLine unbroken

namespace PhysicalLine

/-- The text of a line that belongs to a logical line. -/
def text? : PhysicalLine → Option (List Char)
  | .opening text => some text
  | .continuation text => some text
  | _ => none

theorem infix_of_text?_ofText
    {line text : List Char}
    (found : (ofText line).text? = some text) :
    text <:+: line := by
  have part := Text.trim_infix line
  unfold ofText at found
  split at found
  · cases found
  · cases found
  · rename_i opens
    cases found
    exact opens ▸ part
  · cases found
    exact part

/-- A comment is trimmed, and stands on its line. -/
theorem comment?_ofText
    {line : List Char}
    {comment : String}
    (found : (ofText line).comment? = some comment) :
    Text.trim comment.toList = comment.toList ∧
      comment.toList <:+: line := by
  unfold ofText at found
  split at found
  · cases found
  · rename_i body isComment
    cases found
    have behindSign : body <:+: line :=
      (List.suffix_cons '#' body).isInfix.trans
        (isComment ▸ Text.trim_infix line)
    rw [String.toList_ofList]
    exact
      ⟨Text.trim_trim body, (Text.trim_infix body).trans behindSign⟩
  · cases found
  · cases found

end PhysicalLine

namespace LogicalLine.Joining

/-- No line feed is in the pending lines or in the logical lines. -/
structure IsUnbroken (joining : Joining) : Prop where
  pending : ∀ part ∈ joining.pending, '\n' ∉ part
  lines :
    ∀ line ∈ joining.lines,
      ∀ text, line.text? = some text → '\n' ∉ text.toList

private theorem unbroken_ofRun
    {run : List (List Char)}
    (parts : ∀ part ∈ run, '\n' ∉ part)
    (text : String)
    (isText : (ofRun run).text? = some text) :
    '\n' ∉ text.toList := by
  cases isText
  rw [String.toList_ofList]
  exact Text.not_mem_intercalate (by decide) parts

theorem IsUnbroken.close
    {joining : Joining}
    (unbroken : joining.IsUnbroken) :
    ∀ line ∈ joining.close,
      ∀ text, line.text? = some text → '\n' ∉ text.toList := by
  unfold Joining.close
  split
  · exact unbroken.lines
  · exact List.forall_mem_cons.mpr
      ⟨unbroken_ofRun unbroken.pending, unbroken.lines⟩

theorem IsUnbroken.prepend
    {joining : Joining}
    (unbroken : joining.IsUnbroken)
    {line : PhysicalLine}
    (noLineFeed : ∀ text, line.text? = some text → '\n' ∉ text) :
    (Joining.prepend line joining).IsUnbroken := by
  have separated :
      IsUnbroken ⟨[], .separator :: joining.close⟩ :=
    ⟨List.forall_mem_nil _,
      List.forall_mem_cons.mpr ⟨by simp [text?], unbroken.close⟩⟩
  cases line with
  | blank =>
      exact separated
  | comment body =>
      exact separated
  | opening first =>
      have run : ∀ part ∈ first :: joining.pending, '\n' ∉ part :=
        List.forall_mem_cons.mpr
          ⟨noLineFeed first rfl, unbroken.pending⟩
      exact
        ⟨List.forall_mem_nil _,
          List.forall_mem_cons.mpr ⟨unbroken_ofRun run, unbroken.lines⟩⟩
  | continuation next =>
      exact
        ⟨List.forall_mem_cons.mpr
            ⟨noLineFeed next rfl, unbroken.pending⟩,
          unbroken.lines⟩

theorem isUnbroken_ofLines
    {lines : List PhysicalLine}
    (noLineFeed :
      ∀ line ∈ lines, ∀ text, line.text? = some text → '\n' ∉ text) :
    (ofLines lines).IsUnbroken := by
  induction lines with
  | nil =>
      exact ⟨List.forall_mem_nil _, List.forall_mem_nil _⟩
  | cons line rest inductionHypothesis =>
      obtain ⟨here, later⟩ := List.forall_mem_cons.mp noLineFeed
      exact (inductionHypothesis later).prepend here

end LogicalLine.Joining

namespace JoinedText

private theorem exists_of_mem_physicalLines
    {text : List Char}
    {line : PhysicalLine}
    (member : line ∈ physicalLines text) :
    ∃ written, line = PhysicalLine.ofText written ∧ '\n' ∉ written := by
  obtain ⟨written, isLine, rfl⟩ := List.mem_map.mp member
  exact
    ⟨written, rfl, Text.lineFeed_not_mem_of_mem_physicalLines isLine⟩

/-- No line feed is left in a logical line. -/
theorem lineFeed_not_mem_of_mem_lineTexts
    {text line : String}
    (member : line ∈ Reading.lineTexts (ofText text)) :
    '\n' ∉ line.toList := by
  have unbroken :
      (LogicalLine.Joining.ofLines
        (physicalLines text.toList)).IsUnbroken := by
    apply LogicalLine.Joining.isUnbroken_ofLines
    intro physical isPhysical part found inPart
    obtain ⟨written, rfl, noLineFeed⟩ :=
      exists_of_mem_physicalLines isPhysical
    exact noLineFeed
      ((PhysicalLine.infix_of_text?_ofText found).subset inPart)
  obtain ⟨logical, isLogical, isText⟩ := List.mem_filterMap.mp member
  exact unbroken.close logical isLogical line isText

theorem comment_of_mem_comments
    {text comment : String}
    (member : comment ∈ (ofText text).comments) :
    Text.trim comment.toList = comment.toList ∧ '\n' ∉ comment.toList := by
  obtain ⟨physical, isPhysical, found⟩ := List.mem_filterMap.mp member
  obtain ⟨written, rfl, noLineFeed⟩ :=
    exists_of_mem_physicalLines isPhysical
  obtain ⟨trimmed, part⟩ := PhysicalLine.comment?_ofText found
  exact ⟨trimmed, fun inComment => noLineFeed (part.subset inComment)⟩

end JoinedText

theorem Value.IsWellFormed.agrees_self
    {value : Value}
    (wellFormed : value.IsWellFormed) :
    value.agrees value = true := by
  cases value with
  | flag truth => simp [agrees]
  | number binary => exact Binary64.agrees_self wellFormed
  | text written => simp [agrees]

theorem Statement.IsWellFormed.agrees_self
    {statement : Statement}
    (wellFormed : statement.IsWellFormed) :
    statement.agrees statement = true := by
  have entries :
      (statement.modifiers.entries.zip statement.modifiers.entries).all
          (fun pair => pair.1.1 = pair.2.1 && pair.1.2.agrees pair.2.2) =
        true := by
    rw [List.zip_eq_zipWith, List.zipWith_self, List.all_map,
      List.all_eq_true]
    intro entry member
    simpa using (wellFormed.modifiers entry member).2.agrees_self
  simp only [agrees, Modifiers.agrees, entries, decide_true, Bool.and_self]

private theorem allAgree_self
    {statements : List Statement}
    (wellFormed : ∀ statement ∈ statements, statement.IsWellFormed) :
    Statement.allAgree statements statements = true := by
  induction statements with
  | nil =>
      rfl
  | cons statement rest inductionHypothesis =>
      obtain ⟨here, later⟩ := List.forall_mem_cons.mp wellFormed
      rw [Statement.allAgree, here.agrees_self, inductionHypothesis later]
      rfl

namespace Document

theorem IsWellFormed.agrees_self
    {document : Document}
    (wellFormed : document.IsWellFormed) :
    document.agrees document = true := by
  simp only [agrees, allAgree_self wellFormed.statements, decide_true,
    Bool.and_self]

theorem isWellFormed_ofText (text : String) :
    (ofText text).IsWellFormed := by
  constructor
  case statements =>
    intro statement member
    obtain ⟨line, isLine, found⟩ := List.mem_filterMap.mp member
    exact Statement.isWellFormed_of_ofLine?
      (JoinedText.lineFeed_not_mem_of_mem_lineTexts isLine) found
  case comments =>
    exact fun _ => JoinedText.comment_of_mem_comments

/-- Every text reads as a well-formed document, which agrees with itself. -/
theorem ofText_isWellFormed_and_agrees_self (text : String) :
    (ofText text).IsWellFormed ∧
      (ofText text).agrees (ofText text) = true :=
  ⟨isWellFormed_ofText text, (isWellFormed_ofText text).agrees_self⟩

end Document

end AnchorScript
