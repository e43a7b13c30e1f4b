import AnchorScript.Proofs.Content.SharedSteps
import Mathlib.Data.List.Induction
import Mathlib.Data.Nat.Find

namespace AnchorScript

/-!
# Interleaved calls agree

Between the look for a kept document and the keeping of a parsed one other
calls may step and files may change, so two calls can parse different texts of
one source. They agree nevertheless: a call answers with what is kept, what is
kept is never replaced, and the call that kept it had read it itself.

The invariant `AgreesAfter` says this of the store after some moves. Calls that
fail need no invariant: without them, all moves of the others go as before.
-/

namespace SharedStore

/-- Among the moves, the caller reads a text under the name and parses it. -/
def ReadBy
    (start : SharedStore)
    (past : List Move)
    (caller : Nat)
    (name : String)
    (document : Document) :
    Prop :=
  ∃ earlier between text,
    past = earlier ++ .advance caller :: between ∧
      (start.after earlier).calls caller = some (.missed name) ∧
      (start.after earlier).store.tree.read name = .ok text ∧
      document = Document.ofText text

/-- What was read among the moves was read among more moves. -/
theorem ReadBy.concat
    {start : SharedStore}
    {past : List Move}
    {caller : Nat}
    {name : String}
    {document : Document}
    (readBy : start.ReadBy past caller name document)
    (next : Move) :
    start.ReadBy (past ++ [next]) caller name document := by
  obtain ⟨earlier, between, text, shape, hadMissed, isRead, isText⟩ := readBy
  refine ⟨earlier, between ++ [next], text, ?_, hadMissed, isRead, isText⟩
  rw [shape, List.append_assoc, List.cons_append]

/-- What a call has parsed after one more move it had parsed before, or it reads now. -/
theorem parsed_or_readBy_concat
    {start : SharedStore}
    {past : List Move}
    {next : Move}
    {caller : Nat}
    {name : String}
    {document : Document}
    (isParsed :
      ((start.after past).move next).calls caller =
        some (.parsed name document)) :
    (start.after past).calls caller = some (.parsed name document) ∨
      start.ReadBy (past ++ [next]) caller name document := by
  rcases ((start.after past).steps_move next).parsed_origin isParsed with
    before | ⟨rfl, hadMissed, text, isRead, isText⟩
  · exact Or.inl before
  · exact Or.inr ⟨past, [], text, rfl, hadMissed, isRead, isText⟩

/--
What the calls and the loader agree on after the moves: a call has parsed what
it read, an answer is what is kept, and what is kept was there at the start or
was read by a call that has answered with it.
-/
structure AgreesAfter
    (start : SharedStore)
    (past : List Move) :
    Prop where
  parsed :
    ∀ {caller name document},
      (start.after past).calls caller = some (.parsed name document) →
        start.ReadBy past caller name document
  answered :
    ∀ {caller name document},
      (start.after past).calls caller = some (.answered name document) →
        (start.after past).store.loader.kept? name = some document
  kept :
    ∀ {name document},
      (start.after past).store.loader.kept? name = some document →
        start.store.loader.kept? name = some document ∨
          ∃ winner,
            (start.after past).calls winner =
                some (.answered name document) ∧
              start.ReadBy past winner name document

/-- Where no call has begun, there is nothing to disagree on. -/
theorem agreesAfter_nil
    (store : ContentStore) :
    (ofStore store).AgreesAfter [] where
  parsed isParsed := by cases isParsed
  answered isAnswered := by cases isAnswered
  kept isKept := Or.inl isKept

/-- One move that clears nothing keeps the agreement. -/
theorem AgreesAfter.concat
    {start : SharedStore}
    {past : List Move}
    (agrees : start.AgreesAfter past)
    {next : Move}
    (notClear : next ≠ .clear) :
    start.AgreesAfter (past ++ [next]) := by
  have step := (start.after past).steps_move next
  have isLater :
      start.after (past ++ [next]) = (start.after past).move next :=
    after_append start past [next]
  constructor
  case parsed =>
    intro caller name document isParsed
    rw [isLater] at isParsed
    rcases parsed_or_readBy_concat isParsed with before | readBy
    · exact (agrees.parsed before).concat next
    · exact readBy
  case answered =>
    intro caller name document isAnswered
    rw [isLater] at isAnswered ⊢
    rcases step.answered_origin isAnswered with before | isKept
    · exact step.kept?_of_some notClear (agrees.answered before)
    · exact isKept
  case kept =>
    intro name document isKept
    rw [isLater] at isKept ⊢
    rcases step.kept_origin isKept with before | ⟨winner, hadParsed, isAnswered⟩
    · rcases agrees.kept before with atStart | ⟨winner, hasAnswered, readBy⟩
      · exact Or.inl atStart
      · exact Or.inr
          ⟨winner, step.calls_of_hasEnded hasAnswered rfl, readBy.concat next⟩
    · exact Or.inr
        ⟨winner, isAnswered, (agrees.parsed hadParsed).concat next⟩

/-- Moves that clear nothing lead to agreement. -/
theorem agreesAfter
    (store : ContentStore)
    {moves : List Move}
    (noClear : Move.clear ∉ moves) :
    (ofStore store).AgreesAfter moves := by
  induction moves using List.reverseRecOn with
  | nil =>
      exact agreesAfter_nil store
  | append_singleton past next inductionHypothesis =>
      simp only [List.mem_append, List.mem_singleton, not_or] at noClear
      exact (inductionHypothesis noClear.1).concat (Ne.symm noClear.2)

/-- So there is agreement at every moment. -/
theorem agreesAfter_take
    (store : ContentStore)
    {moves : List Move}
    (noClear : Move.clear ∉ moves)
    (count : Nat) :
    (ofStore store).AgreesAfter (moves.take count) :=
  agreesAfter store fun member => noClear (List.mem_of_mem_take member)

/-- What was read among the first moves was read at a moment before. -/
theorem ReadBy.exists_moment
    {start : SharedStore}
    {moves : List Move}
    {count : Nat}
    {caller : Nat}
    {name : String}
    {document : Document}
    (readBy : start.ReadBy (moves.take count) caller name document) :
    ∃ reading < count, ∃ text,
      moves[reading]? = some (.advance caller) ∧
        (start.after (moves.take reading)).calls caller =
          some (.missed name) ∧
        (start.after (moves.take reading)).store.tree.read name =
          .ok text ∧
        document = Document.ofText text := by
  obtain ⟨earlier, between, text, shape, hadMissed, isRead, isText⟩ := readBy
  have isBefore : earlier.length < count := by
    have length := congrArg List.length shape
    rw [List.length_take, List.length_append, List.length_cons] at length
    omega
  have isEarlier : moves.take earlier.length = earlier := by
    have front := congrArg (List.take earlier.length) shape
    rwa [List.take_take, Nat.min_eq_left (Nat.le_of_lt isBefore),
      List.take_left] at front
  have isIts : moves[earlier.length]? = some (.advance caller) := by
    rw [← List.getElem?_take_of_lt isBefore, shape,
      List.getElem?_append_right (Nat.le_refl _), Nat.sub_self,
      List.getElem?_cons_zero]
  rw [← isEarlier] at hadMissed isRead
  exact ⟨_, isBefore, text, isIts, hadMissed, isRead, isText⟩

/-- What is kept at one moment is kept at every later moment. -/
theorem kept?_after_take_of_le
    {start : SharedStore}
    {moves : List Move}
    (noClear : Move.clear ∉ moves)
    {first moment : Nat}
    (isLater : first ≤ moment)
    {name : String}
    {document : Document}
    (isKept :
      (start.after (moves.take first)).store.loader.kept? name =
        some document) :
    (start.after (moves.take moment)).store.loader.kept? name =
      some document := by
  obtain ⟨between, rfl⟩ := Nat.exists_eq_add_of_le isLater
  rw [List.take_add, after_append]
  exact kept?_after_of_some isKept fun member =>
    noClear (List.mem_of_mem_drop (List.mem_of_mem_take member))

/--
A document that is kept at a moment was kept first at some moment up to then:
nothing is kept before it, and nothing else after it.
-/
theorem exists_first_kept
    {start : SharedStore}
    {moves : List Move}
    (noClear : Move.clear ∉ moves)
    {moment : Nat}
    {name : String}
    {document : Document}
    (isKept :
      (start.after (moves.take moment)).store.loader.kept? name =
        some document) :
    ∃ first ≤ moment, ∀ other,
      (start.after (moves.take other)).store.loader.kept? name =
        if other < first then none else some document := by
  have isSome :
      ∃ other,
        (start.after (moves.take other)).store.loader.kept? name ≠ none :=
    ⟨moment, by rw [isKept]; exact Option.some_ne_none document⟩
  have notLater : Nat.find isSome ≤ moment :=
    Nat.find_min' isSome (by rw [isKept]; exact Option.some_ne_none document)
  obtain ⟨earliest, isEarliest⟩ :=
    Option.ne_none_iff_exists'.mp (Nat.find_spec isSome)
  have same : earliest = document :=
    Option.some.inj
      ((kept?_after_take_of_le noClear notLater isEarliest).symm.trans isKept)
  subst same
  refine ⟨Nat.find isSome, notLater, fun other => ?_⟩
  split
  · rename_i isBefore
    exact not_not.mp (Nat.find_min isSome isBefore)
  · rename_i notBefore
    exact kept?_after_take_of_le noClear (Nat.le_of_not_lt notBefore) isEarliest

section Answers

variable
  {store : ContentStore}
  {moves : List Move}
  (noClear : Move.clear ∉ moves)
  {count caller : Nat}
  {name : String}
  {document : Document}
  (isAnswered :
    ((ofStore store).after (moves.take count)).calls caller =
      some (.answered name document))

include noClear isAnswered

/-- The answer of a call is what is kept under the name. -/
theorem kept?_of_answered :
    ((ofStore store).after (moves.take count)).store.loader.kept? name =
      some document :=
  (agreesAfter_take store noClear count).answered isAnswered

/-- All calls for the name give the same answer, whenever they do. -/
theorem eq_of_answered
    {moment other : Nat}
    {found : Document}
    (hasAnswered :
      ((ofStore store).after (moves.take moment)).calls other =
        some (.answered name found)) :
    found = document := by
  have isKept := kept?_of_answered noClear isAnswered
  have isFoundKept := kept?_of_answered noClear hasAnswered
  rcases Nat.le_total count moment with isLater | isEarlier
  · have stillKept := kept?_after_take_of_le noClear isLater isKept
    exact Option.some.inj (isFoundKept.symm.trans stillKept)
  · have stillKept := kept?_after_take_of_le noClear isEarlier isFoundKept
    exact Option.some.inj (stillKept.symm.trans isKept)

/-- What was not kept at the start was read by a call that answers with it. -/
theorem exists_reader_of_answered
    (notAtStart : store.loader.kept? name = none) :
    ∃ reader,
      ((ofStore store).after (moves.take count)).calls reader =
          some (.answered name document) ∧
        (ofStore store).ReadBy (moves.take count) reader name document := by
  have isKept := kept?_of_answered noClear isAnswered
  rcases (agreesAfter_take store noClear count).kept isKept with
    atStart | isRead
  · cases notAtStart.symm.trans atStart
  · exact isRead

end Answers

/-- Two shared stores differ at most in the calls of the hidden callers. -/
structure AgreesApartFrom
    (isHidden : Nat → Bool)
    (shared other : SharedStore) :
    Prop where
  store : other.store = shared.store
  calls :
    ∀ caller, isHidden caller = false →
      other.calls caller = shared.calls caller

namespace AgreesApartFrom

variable
  {isHidden : Nat → Bool}
  {shared other : SharedStore}
  (agrees : shared.AgreesApartFrom isHidden other)

include agrees

/-- Putting the same store into both keeps them alike. -/
theorem changed
    (store : ContentStore) :
    { shared with store }.AgreesApartFrom isHidden
      { other with store } where
  store := rfl
  calls := agrees.calls

/-- Recording the same progress in both keeps them alike. -/
theorem record
    (caller : Nat)
    (progress : CallProgress) :
    (shared.record caller progress).AgreesApartFrom isHidden
      (other.record caller progress) where
  store := agrees.store
  calls visible notHidden := by
    by_cases isIts : visible = caller
    · rw [isIts, calls_record_self, calls_record_self]
    · rw [calls_record_of_ne isIts, calls_record_of_ne isIts]
      exact agrees.calls visible notHidden

/-- A move of a hidden caller whose call has no document changes only its call. -/
theorem move_hidden
    {next : Move}
    {caller : Nat}
    (isIts : next.caller? = some caller)
    (hidden : isHidden caller = true)
    (hasNone :
      (shared.calls caller).any CallProgress.hasDocument = false) :
    (shared.move next).AgreesApartFrom isHidden other where
  store := by
    rw [(shared.steps_move next).store_eq isIts hasNone, agrees.store]
  calls visible notHidden := by
    have different : next.caller? ≠ some visible := by
      rw [isIts]
      rintro ⟨⟩
      cases hidden.symm.trans notHidden
    rw [(shared.steps_move next).calls_of_ne different]
    exact agrees.calls visible notHidden

/-- The next step of a caller that is not hidden goes alike in both. -/
theorem advance_visible
    {caller : Nat}
    (visible : isHidden caller = false) :
    (shared.advance caller).AgreesApartFrom isHidden
      (other.advance caller) := by
  simp only [advance, agrees.calls caller visible, agrees.store]
  cases shared.calls caller with
  | none => exact agrees
  | some reached =>
      cases reached with
      | accepted name =>
          dsimp only
          cases shared.store.loader.kept? name with
          | none => exact agrees.record caller _
          | some document => exact agrees.record caller _
      | missed name =>
          dsimp only
          cases shared.store.tree.read name with
          | ok text => exact agrees.record caller _
          | error cause => exact agrees.record caller _
      | parsed name document =>
          exact (agrees.changed _).record caller _
      | answered name document => exact agrees
      | failed name fault => exact agrees

/-- A move that is not one of a hidden caller goes alike in both. -/
theorem move_visible
    {next : Move}
    (visible :
      ∀ caller, next.caller? = some caller → isHidden caller = false) :
    (shared.move next).AgreesApartFrom isHidden (other.move next) := by
  cases next with
  | ask caller name =>
      simp only [move, ask, agrees.calls caller (visible caller rfl)]
      cases shared.calls caller with
      | some _ => exact agrees
      | none =>
          cases SourceName.isInside name with
          | true => exact agrees.record caller _
          | false => exact agrees.record caller _
  | advance caller => exact agrees.advance_visible (visible caller rfl)
  | write name content =>
      simp only [move, agrees.store]
      exact agrees.changed _
  | remove name =>
      simp only [move, agrees.store]
      exact agrees.changed _
  | clear =>
      simp only [move, agrees.store]
      exact agrees.changed _

/--
Without the moves of callers whose calls never get a document, all others come
as far as with them, and the store becomes the same.
-/
theorem after_filter
    {moves : List Move}
    (fruitless :
      ∀ caller, isHidden caller = true →
        ((shared.after moves).calls caller).any CallProgress.hasDocument =
          false) :
    (shared.after moves).AgreesApartFrom isHidden
      (other.after (moves.filter fun next => !next.caller?.any isHidden)) := by
  induction moves generalizing shared other with
  | nil => exact agrees
  | cons next rest inductionHypothesis =>
      cases isHidersMove : next.caller?.any isHidden with
      | false =>
          have visible :
              ∀ caller, next.caller? = some caller →
                isHidden caller = false := by
            intro caller isIts
            rwa [isIts] at isHidersMove
          simp only [isHidersMove, List.filter_cons, Bool.not_false, if_true]
          exact inductionHypothesis (agrees.move_visible visible) fruitless
      | true =>
          obtain ⟨caller, isIts, hidden⟩ :=
            (Option.any_eq_true _ _).mp isHidersMove
          -- With a document now, the hidden call would have one in the end.
          have hasNone :
              (shared.calls caller).any CallProgress.hasDocument = false := by
            rw [Bool.eq_false_iff]
            intro hasOne
            have atEnd := hasDocument_after hasOne (next :: rest)
            rw [fruitless caller hidden] at atEnd
            cases atEnd
          simp only [isHidersMove, List.filter_cons, Bool.not_true,
            Bool.false_eq_true, if_false]
          exact inductionHypothesis
            (agrees.move_hidden isIts hidden hasNone) fruitless

end AgreesApartFrom

/-- A call that fails in the end changes the store at no moment. -/
theorem store_after_take_succ
    {start : SharedStore}
    {moves : List Move}
    {caller : Nat}
    (fails :
      ((start.after moves).calls caller).any CallProgress.hasDocument = false)
    {count : Nat}
    {next : Move}
    (isNext : moves[count]? = some next)
    (isIts : next.caller? = some caller) :
    (start.after (moves.take (count + 1))).store =
      (start.after (moves.take count)).store := by
  have hasNone :
      ((start.after (moves.take count)).calls caller).any
        CallProgress.hasDocument = false := by
    rw [Bool.eq_false_iff]
    intro hasOne
    have atEnd := hasDocument_after hasOne (moves.drop count)
    rw [← after_append, List.take_append_drop, fails] at atEnd
    cases atEnd
  rw [List.take_add_one, isNext, Option.toList_some, after_append]
  exact ((start.after (moves.take count)).steps_move next).store_eq
    isIts hasNone

/--
Interleaved calls agree, from any store on and whatever happens to the files, as
long as nothing is cleared. All calls that answer for a name give one document;
it is the kept one from the moment on at which a document is kept first; and
unless it was kept at the start, it is that of the text which one of these calls
read. A call that fails changes the store at no moment, and without all such
calls the others give the same and leave the same store.
-/
theorem concurrent_calls_agree
    (store : ContentStore)
    {moves : List Move}
    (noClear : Move.clear ∉ moves) :
    let start := ofStore store
    let storeAt (count : Nat) := start.after (moves.take count)
    let isFailing (caller : Nat) :=
      ((start.after moves).calls caller).any CallProgress.hasFailed
    let others := moves.filter fun next => !next.caller?.any isFailing
    (∀ count ≤ moves.length, (start.run moves)[count]? = some (storeAt count)) ∧
      (∀ count caller name document,
        (storeAt count).calls caller = some (.answered name document) →
          (∀ moment other found,
            (storeAt moment).calls other = some (.answered name found) →
              found = document) ∧
          (∃ first ≤ count, ∀ moment,
            (storeAt moment).store.loader.kept? name =
              if moment < first then none else some document) ∧
          (store.loader.kept? name = none →
            ∃ reader,
              (storeAt count).calls reader = some (.answered name document) ∧
                ∃ moment < count, ∃ text,
                  moves[moment]? = some (.advance reader) ∧
                    (storeAt moment).calls reader = some (.missed name) ∧
                    (storeAt moment).store.tree.read name = .ok text ∧
                    document = Document.ofText text)) ∧
      (∀ count caller next,
        isFailing caller = true →
          moves[count]? = some next →
            next.caller? = some caller →
              (storeAt (count + 1)).store = (storeAt count).store) ∧
      (start.after others).store = (start.after moves).store ∧
      ∀ caller,
        isFailing caller = false →
          (start.after others).calls caller =
            (start.after moves).calls caller := by
  intro start storeAt isFailing others
  have fruitless :
      ∀ caller, isFailing caller = true →
        ((start.after moves).calls caller).any CallProgress.hasDocument =
          false := by
    intro caller fails
    obtain ⟨progress, isProgress, hasFailed⟩ :=
      (Option.any_eq_true _ _).mp fails
    rw [isProgress]
    exact CallProgress.hasDocument_eq_false_of_hasFailed hasFailed
  have alike : start.AgreesApartFrom isFailing start := ⟨rfl, fun _ _ => rfl⟩
  have without := alike.after_filter fruitless
  refine ⟨fun count isMoment => getElem?_run start isMoment, ?answers,
    ?failures, without.store, without.calls⟩
  case answers =>
    intro count caller name document isAnswered
    refine
      ⟨fun _ _ _ hasAnswered => eq_of_answered noClear isAnswered hasAnswered,
        exists_first_kept noClear (kept?_of_answered noClear isAnswered),
        fun notAtStart => ?_⟩
    obtain ⟨reader, hasAnswered, readBy⟩ :=
      exists_reader_of_answered noClear isAnswered notAtStart
    exact ⟨reader, hasAnswered, readBy.exists_moment⟩
  case failures =>
    intro count caller next fails isNext isIts
    exact store_after_take_succ (fruitless caller fails) isNext isIts

/-- Two calls race for a source that changes between their reads; a third one fails. -/
def race : List Move :=
  [.write "a" ⟨#[35]⟩, .ask 0 "a", .ask 1 "a", .ask 2 "b",
    .advance 0, .advance 1, .advance 2, .advance 0, .write "a" ⟨#[]⟩,
    .advance 1, .advance 2, .advance 1, .advance 0]

/-- A call that had parsed an earlier text gives what a faster call has kept. -/
theorem concurrent_calls_agree_race :
    let storeAt (count : Nat) :=
      (ofStore (.empty {})).after (race.take count)
    Move.clear ∉ race ∧
      (storeAt 8).calls 0 = some (.parsed "a" (Document.ofText "#")) ∧
      (storeAt 13).calls 0 = some (.answered "a" (Document.ofText "")) ∧
      (storeAt 13).calls 2 = some (.failed "b" (.unreadable "b" .missing)) ∧
      (∀ caller found,
        (storeAt 13).calls caller = some (.answered "a" found) →
          found = Document.ofText "") ∧
      ∃ first ≤ 13, ∀ moment,
        (storeAt moment).store.loader.kept? "a" =
          if moment < first then none else some (Document.ofText "") := by
  have noClear : Move.clear ∉ race := by
    simp [race]
  have isAnswered :
      ((ofStore (.empty {})).after (race.take 13)).calls 0 =
        some (.answered "a" (Document.ofText "")) := by
    decide
  obtain ⟨_, answers, _⟩ := concurrent_calls_agree (.empty {}) noClear
  obtain ⟨same, keptFrom, _⟩ := answers 13 0 "a" _ isAnswered
  refine ⟨noClear, ?_, isAnswered, ?_, fun caller found => same 13 caller found,
    keptFrom⟩
  · decide
  · decide

end SharedStore

end AnchorScript
