import AnchorScript.Proofs.Content.Agreement
import Mathlib.Data.List.Infix

namespace AnchorScript

/-!
# Calls after clearing

Clearing forgets what is kept, but not what calls have parsed: a call that read
its source before can keep that document afterwards, and from then on all calls
find it. `lateKeeping` is such an interleaving. Nothing else brings an earlier
text back: what a call answers with after clearing was read since, or another
call had parsed it when the loader was cleared.

The invariant `TracedAfter` follows documents back over any moves, clearing
included, so it speaks of the store before the first of them.
-/

namespace SharedStore

/-- A call reads the document among the moves, or had parsed it before them. -/
def Supplies
    (start : SharedStore)
    (past : List Move)
    (name : String)
    (document : Document) :
    Prop :=
  (∃ reader, start.ReadBy past reader name document) ∨
    ∃ other, start.calls other = some (.parsed name document)

/-- What is supplied by the moves is supplied by more moves. -/
theorem Supplies.concat
    {start : SharedStore}
    {past : List Move}
    {name : String}
    {document : Document}
    (supplies : start.Supplies past name document)
    (next : Move) :
    start.Supplies (past ++ [next]) name document := by
  rcases supplies with ⟨reader, readBy⟩ | hadParsed
  · exact Or.inl ⟨reader, readBy.concat next⟩
  · exact Or.inr hadParsed

/--
Where documents come from: what a call has parsed it had parsed at the start or
has read since, and what is kept or answered with was so at the start or is
supplied by a call. An answer may also be what was kept at the start.
-/
structure TracedAfter
    (start : SharedStore)
    (past : List Move) :
    Prop where
  parsed :
    ∀ {caller name document},
      (start.after past).calls caller = some (.parsed name document) →
        start.calls caller = some (.parsed name document) ∨
          start.ReadBy past caller name document
  kept :
    ∀ {name document},
      (start.after past).store.loader.kept? name = some document →
        start.store.loader.kept? name = some document ∨
          start.Supplies past name document
  answered :
    ∀ {caller name document},
      (start.after past).calls caller = some (.answered name document) →
        start.calls caller = some (.answered name document) ∨
          start.store.loader.kept? name = some document ∨
            start.Supplies past name document

/-- Without moves everything is as at the start. -/
theorem tracedAfter_nil (start : SharedStore) :
    start.TracedAfter [] where
  parsed isParsed := Or.inl isParsed
  kept isKept := Or.inl isKept
  answered isAnswered := Or.inl isAnswered

namespace TracedAfter

variable
  {start : SharedStore}
  {past : List Move}
  (traced : start.TracedAfter past)
  (next : Move)

include traced

/-- What a call has parsed after one more move. -/
theorem parsed_concat
    {caller : Nat}
    {name : String}
    {document : Document}
    (isParsed :
      ((start.after past).move next).calls caller =
        some (.parsed name document)) :
    start.calls caller = some (.parsed name document) ∨
      start.ReadBy (past ++ [next]) caller name document := by
  rcases parsed_or_readBy_concat isParsed with before | readBy
  · rcases traced.parsed before with atStart | hadRead
    · exact Or.inl atStart
    · exact Or.inr (hadRead.concat next)
  · exact Or.inr readBy

/-- What is kept after one more move. -/
theorem kept_concat
    {name : String}
    {document : Document}
    (isKept :
      ((start.after past).move next).store.loader.kept? name =
        some document) :
    start.store.loader.kept? name = some document ∨
      start.Supplies (past ++ [next]) name document := by
  rcases ((start.after past).steps_move next).kept_origin isKept with
    before | ⟨winner, hadParsed, _⟩
  · rcases traced.kept before with atStart | supplies
    · exact Or.inl atStart
    · exact Or.inr (supplies.concat next)
  · rcases traced.parsed hadParsed with atStart | readBy
    · exact Or.inr (Or.inr ⟨winner, atStart⟩)
    · exact Or.inr (Or.inl ⟨winner, readBy.concat next⟩)

/-- One more move, whatever it is, leaves documents traced. -/
theorem concat : start.TracedAfter (past ++ [next]) := by
  have isLater :
      start.after (past ++ [next]) = (start.after past).move next :=
    after_append start past [next]
  constructor
  case parsed =>
    intro caller name document isParsed
    rw [isLater] at isParsed
    exact traced.parsed_concat next isParsed
  case kept =>
    intro name document isKept
    rw [isLater] at isKept
    exact traced.kept_concat next isKept
  case answered =>
    intro caller name document isAnswered
    rw [isLater] at isAnswered
    rcases ((start.after past).steps_move next).answered_origin isAnswered with
      before | isKept
    · rcases traced.answered before with atStart | wasKept | supplies
      · exact Or.inl atStart
      · exact Or.inr (Or.inl wasKept)
      · exact Or.inr (Or.inr (supplies.concat next))
    · exact Or.inr (traced.kept_concat next isKept)

end TracedAfter

/-- Documents are traced after all moves. -/
theorem tracedAfter
    (start : SharedStore)
    (moves : List Move) :
    start.TracedAfter moves := by
  induction moves using List.reverseRecOn with
  | nil =>
      exact tracedAfter_nil start
  | append_singleton past next inductionHypothesis =>
      exact inductionHypothesis.concat next

/-- Where no call had begun, a call has parsed what it read. -/
theorem readBy_of_parsed
    {store : ContentStore}
    {moves : List Move}
    {caller : Nat}
    {name : String}
    {document : Document}
    (isParsed :
      ((ofStore store).after moves).calls caller =
        some (.parsed name document)) :
    (ofStore store).ReadBy moves caller name document := by
  rcases ((ofStore store).tracedAfter moves).parsed isParsed with
    atStart | readBy
  · cases atStart
  · exact readBy

/--
Clearing leaves the calls as they are and nothing kept, so a call that had not
answered before can only answer with what a call supplies.
-/
theorem supplies_of_answered
    {shared : SharedStore}
    {moves : List Move}
    {caller : Nat}
    {name : String}
    {document : Document}
    (notAnswered : shared.calls caller ≠ some (.answered name document))
    (isAnswered :
      (shared.after (.clear :: moves)).calls caller =
        some (.answered name document)) :
    (shared.move .clear).Supplies moves name document := by
  rcases ((shared.move .clear).tracedAfter moves).answered isAnswered with
    hadAnswered | wasKept | supplies
  · exact absurd hadAnswered notAnswered
  · cases wasKept
  · exact supplies

/--
What a call answers with, when it looked for a kept document only after the
loader was cleared: the document of a text that a call read since, or the
document that another call had read before and had not kept yet at that moment.
-/
theorem answered_after_clear
    (store : ContentStore)
    (earlier later : List Move)
    {caller : Nat}
    {name : String}
    {document : Document}
    (notLooked :
      ∀ progress,
        ((ofStore store).after earlier).calls caller = some progress →
          progress = .accepted name)
    (isAnswered :
      ((ofStore store).after (earlier ++ .clear :: later)).calls caller =
        some (.answered name document)) :
    let cleared := (ofStore store).after (earlier ++ [.clear])
    (∃ between, between <+: later ∧
      ∃ text,
        (cleared.after between).store.tree.read name = .ok text ∧
          document = Document.ofText text) ∨
      ∃ other ≠ caller,
        ((ofStore store).after earlier).calls other =
            some (.parsed name document) ∧
          (ofStore store).ReadBy earlier other name document := by
  intro cleared
  have isCleared : cleared = ((ofStore store).after earlier).move .clear :=
    after_append _ _ _
  rw [after_append] at isAnswered
  have notAnswered :
      ((ofStore store).after earlier).calls caller ≠
        some (.answered name document) := by
    intro hadAnswered
    cases notLooked _ hadAnswered
  rcases supplies_of_answered notAnswered isAnswered with
    ⟨reader, readBy⟩ | ⟨other, hadParsed⟩
  · obtain ⟨between, rest, text, shape, _, isRead, isText⟩ := readBy
    rw [← isCleared] at isRead
    exact Or.inl ⟨between, ⟨_, shape.symm⟩, text, isRead, isText⟩
  · refine Or.inr ⟨other, ?_, hadParsed, readBy_of_parsed hadParsed⟩
    rintro rfl
    cases notLooked _ hadParsed

/-- A call parses a source, which is then overwritten. -/
def overwritten : List Move :=
  [.write "a" ⟨#[35]⟩, .ask 0 "a", .advance 0, .advance 0, .write "a" ⟨#[]⟩]

/-- Another call looks and reads before the first one keeps its document. -/
def overtaken : List Move :=
  [.ask 1 "a", .advance 1, .advance 1, .advance 1, .advance 0]

/-- The first call keeps its document before another one looks. -/
def lateKeeping : List Move :=
  [.advance 0, .ask 1 "a", .advance 1]

/-- A later call that is faster gives the new text, and then the earlier one does too. -/
theorem answered_after_clear_overtaken :
    let start := ofStore (.empty {})
    let cleared := start.after (overwritten ++ [.clear])
    (start.after overwritten).calls 0 =
        some (.parsed "a" (Document.ofText "#")) ∧
      (start.after overwritten).calls 1 = none ∧
      (start.after (overwritten ++ .clear :: overtaken)).calls 0 =
        some (.answered "a" (Document.ofText "")) ∧
      (start.after (overwritten ++ .clear :: overtaken)).calls 1 =
        some (.answered "a" (Document.ofText "")) ∧
      ((∃ between, between <+: overtaken ∧
        ∃ text,
          (cleared.after between).store.tree.read "a" = .ok text ∧
            Document.ofText "" = Document.ofText text) ∨
        ∃ other ≠ 1,
          (start.after overwritten).calls other =
              some (.parsed "a" (Document.ofText "")) ∧
            start.ReadBy overwritten other "a" (Document.ofText "")) := by
  intro start cleared
  have notBegun : (start.after overwritten).calls 1 = none := by
    decide
  have isAnswered :
      (start.after (overwritten ++ .clear :: overtaken)).calls 1 =
        some (.answered "a" (Document.ofText "")) := by
    decide
  refine ⟨by decide, notBegun, by decide, isAnswered, ?_⟩
  refine answered_after_clear (.empty {}) overwritten overtaken ?_ isAnswered
  intro progress hasBegun
  cases notBegun.symm.trans hasBegun

/--
A call that begins after clearing can answer with a document that its source no
longer had when the loader was cleared, and never had again.
-/
theorem stale_answer_after_clear :
    let start := ofStore (.empty {})
    (start.after overwritten).calls 1 = none ∧
      (start.after (overwritten ++ .clear :: lateKeeping)).calls 1 =
        some (.answered "a" (Document.ofText "#")) ∧
      (∀ between, between <+: lateKeeping →
        (start.after (overwritten ++ .clear :: between)).store.tree.read "a" =
          .ok "") ∧
      Document.ofText "" ≠ Document.ofText "#" := by
  intro start
  have isNew :
      ∀ moves ∈ lateKeeping.inits,
        (start.after (overwritten ++ .clear :: moves)).store.tree.read "a" =
          .ok "" := by
    decide
  refine ⟨by decide, by decide, fun between isBetween => ?_, by decide⟩
  exact isNew between ((List.mem_inits _ _).mpr isBetween)

end SharedStore

end AnchorScript
