import AnchorScript.Proofs.Reader.SentenceReading

namespace AnchorScript

/-!
# The blocks of a line

Which blocks a line has, said without the reader. A block opens at the first
mark that a closing parenthesis follows anywhere. Its body is the balanced text
that a closing parenthesis ends, or else everything up to the first closing
parenthesis, and the next block is looked for behind it. Every line is divided
in exactly one way, so the bodies of its blocks are what the reader finds.
-/

namespace Reader

/--
The body of a block and the text behind it: a balanced body if there is one, and
else the body that holds no closing parenthesis.
-/
inductive Encloses (inside : List Char) : List Char → List Char → Prop where
  | balanced
      {body after : List Char}
      (split : inside = body ++ ')' :: after)
      (balanced : Sentence.Balanced body) :
      Encloses inside body after
  | unbalanced
      {body after : List Char}
      (split : inside = body ++ ')' :: after)
      (first : ')' ∉ body)
      (noneBalanced :
        ∀ other rest,
          inside = other ++ ')' :: rest → ¬Sentence.Balanced other) :
      Encloses inside body after

/-- A mark with a closing parenthesis behind it, at the first place that has one. -/
structure OpensAt (text before inside : List Char) : Prop where
  split : text = before ++ ("::mod(".toList ++ inside)
  closable : ')' ∈ inside
  first :
    ∀ earlier later,
      text = earlier ++ ("::mod(".toList ++ later) →
        ')' ∈ later →
          before.length ≤ earlier.length

/-- The bodies of the blocks of a text, one after another. -/
inductive Divides : List Char → List (List Char) → Prop where
  | done
      {text : List Char}
      (unopened :
        ∀ before inside,
          text = before ++ ("::mod(".toList ++ inside) → ')' ∉ inside) :
      Divides text []
  | block
      {text before inside body after : List Char}
      {bodies : List (List Char)}
      (opens : OpensAt text before inside)
      (encloses : Encloses inside body after)
      (rest : Divides after bodies) :
      Divides text (body :: bodies)

/-! ## One way to divide a text -/

/-- A text has one balanced front that a closing parenthesis ends. -/
theorem balanced_unique
    {body other after rest : List Char}
    (balanced : Sentence.Balanced body)
    (otherBalanced : Sentence.Balanced other)
    (same : body ++ ')' :: after = other ++ ')' :: rest) :
    body = other ∧ after = rest := by
  have read := Sentence.balancedBody?_of_balanced balanced after
  rw [same, Sentence.balancedBody?_of_balanced otherBalanced rest] at read
  simpa using read.symm

/-- The body of a block is settled by the text behind its mark. -/
theorem Encloses.unique
    {inside body after other rest : List Char}
    (encloses : Encloses inside body after)
    (otherEncloses : Encloses inside other rest) :
    body = other ∧ after = rest := by
  cases encloses with
  | balanced split balanced =>
      cases otherEncloses with
      | balanced otherSplit otherBalanced =>
          exact balanced_unique balanced otherBalanced
            (split.symm.trans otherSplit)
      | unbalanced _ _ noneBalanced =>
          exact absurd balanced (noneBalanced _ _ split)
  | unbalanced split first noneBalanced =>
      cases otherEncloses with
      | balanced otherSplit otherBalanced =>
          exact absurd otherBalanced (noneBalanced _ _ otherSplit)
      | unbalanced otherSplit otherFirst _ =>
          have cut := Text.cut?_eq_some_iff.mpr ⟨split, first⟩
          rw [Text.cut?_eq_some_iff.mpr ⟨otherSplit, otherFirst⟩] at cut
          simpa using cut.symm

/-- The first mark that can be closed is at one place. -/
theorem OpensAt.unique
    {text before inside earlier later : List Char}
    (opens : OpensAt text before inside)
    (otherOpens : OpensAt text earlier later) :
    before = earlier ∧ inside = later := by
  have sameLength : before.length = earlier.length :=
    Nat.le_antisymm
      (opens.first _ _ otherOpens.split otherOpens.closable)
      (otherOpens.first _ _ opens.split opens.closable)
  obtain ⟨sameBefore, sameBehind⟩ :=
    List.append_inj (opens.split.symm.trans otherOpens.split) sameLength
  exact ⟨sameBefore, List.append_cancel_left sameBehind⟩

/-- Two divisions of a text have the same bodies. -/
theorem Divides.unique
    {text : List Char}
    {bodies others : List (List Char)}
    (divides : Divides text bodies)
    (otherDivides : Divides text others) :
    bodies = others := by
  induction divides generalizing others with
  | done unopened =>
      cases otherDivides with
      | done _ =>
          rfl
      | block opens _ _ =>
          exact absurd opens.closable (unopened _ _ opens.split)
  | block opens encloses _ inductionHypothesis =>
      cases otherDivides with
      | done unopened =>
          exact absurd opens.closable (unopened _ _ opens.split)
      | block otherOpens otherEncloses otherRest =>
          obtain ⟨_, rfl⟩ := opens.unique otherOpens
          obtain ⟨rfl, rfl⟩ := encloses.unique otherEncloses
          rw [inductionHypothesis otherRest]

/-! ## The reader divides the text -/

/--
What the reader takes for a balanced body is balanced. With a parenthesis open,
it first closes that one.
-/
private theorem balanced_of_balancedBody?
    {nested : Bool}
    {text body after : List Char}
    (found : balancedBody? nested text = some (body, after)) :
    if nested then
      ∃ inner rest,
        body = inner ++ ')' :: rest ∧ '(' ∉ inner ∧ ')' ∉ inner ∧
          Sentence.Balanced rest
    else Sentence.Balanced body := by
  induction text generalizing nested body with
  | nil =>
      cases found
  | cons first rest inductionHypothesis =>
      simp only [balancedBody?] at found
      split at found
      · rename_i closes
        cases found
        rw [closes.2]
        exact .nil
      · rename_i notEnd
        split at found
        · cases found
        · rename_i notSecond
          obtain ⟨⟨inner, last⟩, foundRest, same⟩ :=
            Option.map_eq_some_iff.mp found
          cases same
          have behind := inductionHypothesis foundRest
          cases nested with
          | false =>
              by_cases opens : first = '('
              · subst opens
                simp only [if_true] at behind
                obtain ⟨group, tail, rfl, noOpening, noClosing, balanced⟩ :=
                  behind
                exact .group noOpening noClosing balanced
              · have notClosing : first ≠ ')' := fun closes =>
                  notEnd ⟨closes, rfl⟩
                simp only [opens, notClosing, if_false,
                  Bool.false_eq_true] at behind
                exact .plain opens notClosing behind
          | true =>
              have notOpening : first ≠ '(' := fun opens =>
                notSecond ⟨opens, rfl⟩
              simp only [if_true]
              by_cases closes : first = ')'
              · subst closes
                simp only [notOpening, if_false, if_true,
                  Bool.false_eq_true] at behind
                exact ⟨[], inner, rfl, List.not_mem_nil, List.not_mem_nil,
                  behind⟩
              · simp only [notOpening, closes, if_false, if_true] at behind
                obtain ⟨group, tail, rfl, noOpening, noClosing, balanced⟩ :=
                  behind
                refine ⟨first :: group, tail, rfl, ?_, ?_, balanced⟩
                · exact List.not_mem_cons_of_ne_of_not_mem
                    (Ne.symm notOpening) noOpening
                · exact List.not_mem_cons_of_ne_of_not_mem
                    (Ne.symm closes) noClosing

/-- A text is balanced exactly when the reader takes it whole. -/
theorem balanced_iff {body : List Char} :
    Sentence.Balanced body ↔
      balancedBody? false (body ++ [')']) = some (body, []) :=
  ⟨fun balanced => Sentence.balancedBody?_of_balanced balanced [],
    balanced_of_balancedBody?⟩

instance (body : List Char) : Decidable (Sentence.Balanced body) :=
  decidable_of_iff _ balanced_iff.symm

/-- What the reader takes for the body of a block is its body. -/
theorem encloses_of_blockBody?
    {inside body after : List Char}
    (found : blockBody? inside = some (body, after)) :
    Encloses inside body after := by
  have split := eq_of_blockBody? found
  unfold blockBody? at found
  split at found
  · rename_i pair foundBalanced
    cases found
    exact .balanced split (balanced_of_balancedBody? foundBalanced)
  · rename_i notBalanced
    refine .unbalanced split (Text.cut?_eq_some_iff.mp found).2 ?_
    intro other rest otherSplit balanced
    have read := Sentence.balancedBody?_of_balanced balanced rest
    rw [← otherSplit, notBalanced] at read
    cases read

/-- Without a body, nothing closes a block. -/
private theorem not_mem_of_blockBody?_eq_none
    {inside : List Char}
    (notFound : blockBody? inside = none) :
    ')' ∉ inside := by
  unfold blockBody? at notFound
  split at notFound
  · cases notFound
  · exact Text.cut?_eq_none_iff.mp notFound

/-- A character that opens no block belongs to none. -/
theorem Divides.cons_of_not_prefix
    {first : Char}
    {rest : List Char}
    {bodies : List (List Char)}
    (notOpened : ¬blockMark <+: first :: rest)
    (divides : Divides rest bodies) :
    Divides (first :: rest) bodies := by
  -- So every mark stands behind the character.
  have behind :
      ∀ before inside,
        first :: rest = before ++ (blockMark ++ inside) →
          ∃ others,
            before = first :: others ∧
              rest = others ++ (blockMark ++ inside) := by
    intro before inside split
    cases before with
    | nil =>
        exact absurd ⟨inside, split.symm⟩ notOpened
    | cons head others =>
        rw [List.cons_append, List.cons.injEq] at split
        exact ⟨others, by rw [split.1], split.2⟩
  cases divides with
  | done unopened =>
      refine .done fun before inside split => ?_
      obtain ⟨others, _, splitRest⟩ := behind before inside split
      exact unopened others inside splitRest
  | @block _ before inside _ _ _ opens encloses divided =>
      have opensBehind : OpensAt (first :: rest) (first :: before) inside := by
        refine ⟨by rw [opens.split, List.cons_append], opens.closable, ?_⟩
        intro earlier later split closable
        obtain ⟨others, rfl, splitRest⟩ := behind earlier later split
        exact Nat.succ_le_succ (opens.first others later splitRest closable)
      exact .block opensBehind encloses divided

/-- The reader divides a text into its blocks. -/
theorem divides_blocks (text : List Char) :
    Divides text (blocks text) := by
  fun_induction blocks text with
  | case1 =>
      exact .done fun before inside split => by simp at split
  | case2 first rest notOpened inductionHypothesis =>
      exact inductionHypothesis.cons_of_not_prefix
        (insideBlock?_eq_none_iff.mp notOpened)
  | case3 first rest inside opened body after closed inductionHypothesis =>
      have closable : ')' ∈ inside := by
        rw [eq_of_blockBody? closed]
        exact List.mem_append_right _ List.mem_cons_self
      have opens : OpensAt (first :: rest) [] inside :=
        ⟨eq_of_insideBlock? opened, closable, fun _ _ _ _ => Nat.zero_le _⟩
      exact .block opens (encloses_of_blockBody? closed) inductionHypothesis
  | case4 first rest inside opened notClosed =>
      refine .done fun before later marked closable => ?_
      have split : first :: rest = before ++ (blockMark ++ later) := marked
      have isText := eq_of_insideBlock? opened
      have isEnd : inside <:+ first :: rest := ⟨blockMark, isText.symm⟩
      have isLaterEnd : later <:+ first :: rest :=
        ⟨before ++ blockMark, by rw [split, List.append_assoc]⟩
      have isShorter : later.length ≤ inside.length := by
        have length := congrArg List.length (split.symm.trans isText)
        simp only [List.length_append] at length
        omega
      have isPart :=
        List.suffix_of_suffix_length_le isLaterEnd isEnd isShorter
      exact not_mem_of_blockBody?_eq_none notClosed (isPart.subset closable)

end Reader

/-- The modifiers of the bodies of blocks, merged from left to right. -/
def Modifiers.ofBodies (bodies : List (List Char)) : Modifiers :=
  bodies.foldl
    (fun merged body => merged.merge (Modifiers.ofBlock body))
    Modifiers.empty

/-- However a line is divided into blocks, its statement has their modifiers. -/
theorem Statement.modifiers_eq_ofBodies
    {line : String}
    {statement : Statement}
    (isStatement : Statement.ofLine? line = some statement)
    {bodies : List (List Char)}
    (divides : Reader.Divides line.toList bodies) :
    statement.modifiers = Modifiers.ofBodies bodies := by
  obtain ⟨ends, _, rfl⟩ := Option.map_eq_some_iff.mp isStatement
  rw [divides.unique (Reader.divides_blocks line.toList)]
  rfl

/--
The modifiers of a statement are those of the blocks of its line, merged from
left to right. The blocks are settled by the line, and what stands outside of
them does not count: a statement on a line with the same blocks has the same
modifiers.
-/
theorem Statement.modifiers_of_blocks
    {line : String}
    {statement : Statement}
    (isStatement : Statement.ofLine? line = some statement) :
    ∃ bodies,
      Reader.Divides line.toList bodies ∧
        (∀ others, Reader.Divides line.toList others → others = bodies) ∧
        statement.modifiers = Modifiers.ofBodies bodies ∧
        ∀ otherLine other,
          Statement.ofLine? otherLine = some other →
            Reader.Divides otherLine.toList bodies →
              other.modifiers = statement.modifiers := by
  have divides := Reader.divides_blocks line.toList
  have isMerged := Statement.modifiers_eq_ofBodies isStatement divides
  refine
    ⟨_, divides, fun others otherDivides => otherDivides.unique divides,
      isMerged, ?_⟩
  intro otherLine other isOther otherDivides
  exact (Statement.modifiers_eq_ofBodies isOther otherDivides).trans
    isMerged.symm

/-- A line with a block in an anchor, one nested too deeply and one never closed. -/
def unruly : String :=
  "[A ::mod(a=1)] -> [B] ::mod(b=((2)) c=3) ::mod(d=4"

/-- The deep block ends at its first closing parenthesis, and the open one is none. -/
theorem Statement.modifiers_of_blocks_unruly :
    ∃ statement,
      Statement.ofLine? unruly = some statement ∧
        Reader.Divides unruly.toList ["a=1".toList, "b=((2".toList] ∧
        (∀ others, Reader.Divides unruly.toList others →
          others = ["a=1".toList, "b=((2".toList]) ∧
        statement.modifiers =
          Modifiers.ofBodies ["a=1".toList, "b=((2".toList] ∧
        ∀ otherLine other,
          Statement.ofLine? otherLine = some other →
            Reader.Divides otherLine.toList
                ["a=1".toList, "b=((2".toList] →
              other.modifiers = statement.modifiers := by
  obtain ⟨statement, isStatement⟩ :=
    Option.isSome_iff_exists.mp
      (show (Statement.ofLine? unruly).isSome by decide)
  obtain ⟨bodies, divides, isOnly, isMerged, isBlind⟩ :=
    Statement.modifiers_of_blocks isStatement
  have found :
      Reader.blocks unruly.toList = ["a=1".toList, "b=((2".toList] := by
    decide +kernel
  have same : ["a=1".toList, "b=((2".toList] = bodies :=
    isOnly _ (found ▸ Reader.divides_blocks unruly.toList)
  rw [same]
  exact ⟨statement, isStatement, divides, isOnly, isMerged, isBlind⟩

end AnchorScript
