import AnchorScript.Content.Interleaving

namespace AnchorScript

/-!
# What a move can do

A move of a caller either leaves everything as it is, or records how far the
call has come, or keeps a document that was parsed. All other moves leave the
calls alone. What holds in every interleaving follows from these cases, by
induction over the moves.
-/

/-- The caller that a move belongs to; changes of files and clearing have none. -/
def Move.caller? : Move → Option Nat
  | ask caller _ => some caller
  | advance caller => some caller
  | write _ _ => none
  | remove _ => none
  | clear => none

namespace CallProgress

/-- The call has given its answer, or has failed. -/
def hasEnded : CallProgress → Bool
  | answered _ _ => true
  | failed _ _ => true
  | _ => false

/-- The call has a document, its own or the kept one. -/
def hasDocument : CallProgress → Bool
  | parsed _ _ => true
  | answered _ _ => true
  | _ => false

/-- The call has failed. -/
def hasFailed : CallProgress → Bool
  | failed _ _ => true
  | _ => false

/-- A call that has failed has no document. -/
theorem hasDocument_eq_false_of_hasFailed
    {progress : CallProgress}
    (fails : progress.hasFailed = true) :
    progress.hasDocument = false := by
  cases progress with
  | failed _ _ => rfl
  | _ => cases fails

end CallProgress

namespace SharedStore

/-- The progress that a move of a caller records without a change of the store. -/
inductive Progresses
    (shared : SharedStore)
    (caller : Nat) :
    Move → CallProgress → Prop where
  | accepted
      {name : String}
      (isNew : shared.calls caller = none)
      (inside : SourceName.isInside name = true) :
      Progresses shared caller (.ask caller name) (.accepted name)
  | refused
      {name : String}
      (isNew : shared.calls caller = none)
      (outside : SourceName.isInside name = false) :
      Progresses shared caller (.ask caller name)
        (.failed name (.invalidName name))
  | found
      {name : String}
      {document : Document}
      (wasAccepted : shared.calls caller = some (.accepted name))
      (isKept : shared.store.loader.kept? name = some document) :
      Progresses shared caller (.advance caller) (.answered name document)
  | missed
      {name : String}
      (wasAccepted : shared.calls caller = some (.accepted name))
      (notKept : shared.store.loader.kept? name = none) :
      Progresses shared caller (.advance caller) (.missed name)
  | parsed
      {name text : String}
      (hadMissed : shared.calls caller = some (.missed name))
      (isRead : shared.store.tree.read name = .ok text) :
      Progresses shared caller (.advance caller)
        (.parsed name (Document.ofText text))
  | unreadable
      {name : String}
      {cause : ReadCause}
      (hadMissed : shared.calls caller = some (.missed name))
      (notRead : shared.store.tree.read name = .error cause) :
      Progresses shared caller (.advance caller)
        (.failed name (.unreadable name cause))
  | late
      {name : String}
      {document earlier : Document}
      (hadParsed : shared.calls caller = some (.parsed name document))
      (isKept : shared.store.loader.kept? name = some earlier) :
      Progresses shared caller (.advance caller) (.answered name earlier)

/-- The ways in which a move can go, each with the next store. -/
inductive Steps (shared : SharedStore) : Move → SharedStore → Prop where
  | taken
      {caller : Nat}
      {name : String}
      (notNew : shared.calls caller ≠ none) :
      Steps shared (.ask caller name) shared
  | idle
      {caller : Nat}
      (isIdle : (shared.calls caller).all CallProgress.hasEnded = true) :
      Steps shared (.advance caller) shared
  | records
      {caller : Nat}
      {next : Move}
      {progress : CallProgress}
      (progresses : shared.Progresses caller next progress) :
      Steps shared next (shared.record caller progress)
  | keeps
      {caller : Nat}
      {name : String}
      {document : Document}
      (hadParsed : shared.calls caller = some (.parsed name document))
      (notKept : shared.store.loader.kept? name = none) :
      Steps shared (.advance caller)
        (record caller (.answered name document)
          { shared with
            store :=
              { shared.store with
                loader := shared.store.loader.keep name document } })
  | changes
      {next : Move}
      (tree : FileTree)
      (isNoCall : next.caller? = none)
      (notClear : next ≠ .clear) :
      Steps shared next
        { shared with store := { shared.store with tree } }
  | clears :
      Steps shared .clear
        { shared with
          store :=
            { shared.store with loader := shared.store.loader.clear } }

private theorem steps_ask
    (shared : SharedStore)
    (caller : Nat)
    (name : String) :
    shared.Steps (.ask caller name) (shared.ask caller name) := by
  cases progress : shared.calls caller with
  | some _ =>
      simp only [ask, progress]
      exact .taken (by simp [progress])
  | none =>
      cases inside : SourceName.isInside name with
      | true =>
          simp only [ask, progress, inside, if_true]
          exact .records (.accepted progress inside)
      | false =>
          simp only [ask, progress, inside, Bool.false_eq_true, if_false]
          exact .records (.refused progress inside)

private theorem steps_advance
    (shared : SharedStore)
    (caller : Nat) :
    shared.Steps (.advance caller) (shared.advance caller) := by
  cases progress : shared.calls caller with
  | none =>
      simp only [advance, progress]
      exact .idle (by rw [progress]; rfl)
  | some reached =>
      cases reached with
      | accepted name =>
          cases isKept : shared.store.loader.kept? name with
          | some document =>
              simp only [advance, progress, isKept]
              exact .records (.found progress isKept)
          | none =>
              simp only [advance, progress, isKept]
              exact .records (.missed progress isKept)
      | missed name =>
          cases isRead : shared.store.tree.read name with
          | ok text =>
              simp only [advance, progress, isRead]
              exact .records (.parsed progress isRead)
          | error cause =>
              simp only [advance, progress, isRead]
              exact .records (.unreadable progress isRead)
      | parsed name document =>
          cases isKept : shared.store.loader.kept? name with
          | some earlier =>
              simp only [advance, progress, Loader.keep_of_some isKept,
                isKept, Option.getD_some]
              exact .records (.late progress isKept)
          | none =>
              simp only [advance, progress, Loader.kept?_keep_self,
                isKept, Option.getD_none, Option.getD_some]
              exact .keeps progress isKept
      | answered name document =>
          simp only [advance, progress]
          exact .idle (by rw [progress]; rfl)
      | failed name fault =>
          simp only [advance, progress]
          exact .idle (by rw [progress]; rfl)

/-- Every move goes in one of these ways. -/
theorem steps_move
    (shared : SharedStore)
    (next : Move) :
    shared.Steps next (shared.move next) := by
  cases next with
  | ask caller name => exact shared.steps_ask caller name
  | advance caller => exact shared.steps_advance caller
  | write name content => exact .changes _ rfl (by simp)
  | remove name => exact .changes _ rfl (by simp)
  | clear => exact .clears

/-- A caller that records its progress is the one whose move it is. -/
theorem Progresses.caller?_eq
    {shared : SharedStore}
    {caller : Nat}
    {next : Move}
    {progress : CallProgress}
    (progresses : shared.Progresses caller next progress) :
    next.caller? = some caller := by
  cases progresses <;> rfl

/-- Only a call that has not ended progresses. -/
theorem Progresses.hasEnded_eq_false
    {shared : SharedStore}
    {caller : Nat}
    {next : Move}
    {progress reached : CallProgress}
    (progresses : shared.Progresses caller next progress)
    (before : shared.calls caller = some reached) :
    reached.hasEnded = false := by
  cases progresses with
  | accepted isNew _ => cases isNew.symm.trans before
  | refused isNew _ => cases isNew.symm.trans before
  | found wasAccepted _ => cases wasAccepted.symm.trans before; rfl
  | missed wasAccepted _ => cases wasAccepted.symm.trans before; rfl
  | parsed hadMissed _ => cases hadMissed.symm.trans before; rfl
  | unreadable hadMissed _ => cases hadMissed.symm.trans before; rfl
  | late hadParsed _ => cases hadParsed.symm.trans before; rfl

/-- A call that has a document still has one when it progresses. -/
theorem Progresses.hasDocument
    {shared : SharedStore}
    {caller : Nat}
    {next : Move}
    {progress reached : CallProgress}
    (progresses : shared.Progresses caller next progress)
    (before : shared.calls caller = some reached)
    (hasOne : reached.hasDocument = true) :
    progress.hasDocument = true := by
  cases progresses with
  | accepted isNew _ => cases isNew.symm.trans before
  | refused isNew _ => cases isNew.symm.trans before
  | found wasAccepted _ => rfl
  | missed wasAccepted _ => cases wasAccepted.symm.trans before; cases hasOne
  | parsed hadMissed _ => rfl
  | unreadable hadMissed _ => cases hadMissed.symm.trans before; cases hasOne
  | late hadParsed _ => rfl

namespace Steps

variable
  {shared later : SharedStore}
  {next : Move}
  (step : shared.Steps next later)
  {caller : Nat}

include step

/-- A move leaves the calls of all other callers alone. -/
theorem calls_of_ne
    (notIts : next.caller? ≠ some caller) :
    later.calls caller = shared.calls caller := by
  cases step with
  | taken _ => rfl
  | idle _ => rfl
  | records progresses =>
      refine calls_record_of_ne (fun same => notIts ?_) _ _
      rw [same]
      exact progresses.caller?_eq
  | keeps _ _ =>
      exact calls_record_of_ne (fun same => notIts (by rw [same]; rfl)) _ _
  | changes _ _ _ => rfl
  | clears => rfl

/-- What a call has come to in the end stays. -/
theorem calls_of_hasEnded
    {reached : CallProgress}
    (before : shared.calls caller = some reached)
    (ended : reached.hasEnded = true) :
    later.calls caller = some reached := by
  cases step with
  | taken _ => exact before
  | idle _ => exact before
  | @records mover _ progress progresses =>
      by_cases isIts : caller = mover
      · subst isIts
        rw [progresses.hasEnded_eq_false before] at ended
        cases ended
      · rw [calls_record_of_ne isIts, before]
  | @keeps mover _ _ hadParsed _ =>
      by_cases isIts : caller = mover
      · subst isIts
        cases hadParsed.symm.trans before
        cases ended
      · rw [calls_record_of_ne isIts, before]
  | changes _ _ _ => exact before
  | clears => exact before

/-- A call that has a document never loses it. -/
theorem hasDocument
    (before :
      (shared.calls caller).any CallProgress.hasDocument = true) :
    (later.calls caller).any CallProgress.hasDocument = true := by
  cases step with
  | taken _ => exact before
  | idle _ => exact before
  | @records mover _ progress progresses =>
      by_cases isIts : caller = mover
      · subst isIts
        obtain ⟨reached, isReached, hasOne⟩ := (Option.any_eq_true _ _).mp before
        rw [calls_record_self]
        exact progresses.hasDocument isReached hasOne
      · rw [calls_record_of_ne isIts, before]
  | @keeps mover _ _ hadParsed _ =>
      by_cases isIts : caller = mover
      · subst isIts
        rw [calls_record_self]
        rfl
      · rw [calls_record_of_ne isIts]
        exact before
  | changes _ _ _ => exact before
  | clears => exact before

/-- A caller whose call has no document leaves the store as it is. -/
theorem store_eq
    (isIts : next.caller? = some caller)
    (hasNone :
      (shared.calls caller).any CallProgress.hasDocument = false) :
    later.store = shared.store := by
  cases step with
  | taken _ => rfl
  | idle _ => rfl
  | records _ => rfl
  | keeps hadParsed _ =>
      cases isIts
      rw [hadParsed] at hasNone
      cases hasNone
  | changes _ isNoCall _ => cases isNoCall.symm.trans isIts
  | clears => cases isIts

/-- A document that is kept stays kept until the loader is cleared. -/
theorem kept?_of_some
    (notClear : next ≠ .clear)
    {name : String}
    {document : Document}
    (isKept : shared.store.loader.kept? name = some document) :
    later.store.loader.kept? name = some document := by
  cases step with
  | taken _ => exact isKept
  | idle _ => exact isKept
  | records _ => exact isKept
  | @keeps _ other _ _ notKept =>
      have different : name ≠ other := by
        rintro rfl
        cases notKept.symm.trans isKept
      exact (Loader.kept?_keep_of_ne _ _ different).trans isKept
  | changes _ _ _ => exact isKept
  | clears => exact absurd rfl notClear

/-- A call has parsed its source before, or reads and parses it now. -/
theorem parsed_origin
    {name : String}
    {document : Document}
    (isParsed : later.calls caller = some (.parsed name document)) :
    shared.calls caller = some (.parsed name document) ∨
      next = .advance caller ∧
        shared.calls caller = some (.missed name) ∧
          ∃ text,
            shared.store.tree.read name = .ok text ∧
              document = Document.ofText text := by
  cases step with
  | taken _ => exact Or.inl isParsed
  | idle _ => exact Or.inl isParsed
  | @records mover _ _ progresses =>
      by_cases isIts : caller = mover
      · subst isIts
        rw [calls_record_self] at isParsed
        cases isParsed
        cases progresses with
        | @parsed _ text hadMissed isRead =>
            exact Or.inr ⟨rfl, hadMissed, text, isRead, rfl⟩
      · rw [calls_record_of_ne isIts] at isParsed
        exact Or.inl isParsed
  | @keeps mover _ _ _ _ =>
      by_cases isIts : caller = mover
      · rw [isIts, calls_record_self] at isParsed
        cases isParsed
      · rw [calls_record_of_ne isIts] at isParsed
        exact Or.inl isParsed
  | changes _ _ _ => exact Or.inl isParsed
  | clears => exact Or.inl isParsed

/-- A call has answered before, or answers now with what is kept then. -/
theorem answered_origin
    {name : String}
    {document : Document}
    (isAnswered : later.calls caller = some (.answered name document)) :
    shared.calls caller = some (.answered name document) ∨
      later.store.loader.kept? name = some document := by
  cases step with
  | taken _ => exact Or.inl isAnswered
  | idle _ => exact Or.inl isAnswered
  | @records mover _ _ progresses =>
      by_cases isIts : caller = mover
      · subst isIts
        rw [calls_record_self] at isAnswered
        cases isAnswered
        cases progresses with
        | found _ isKept => exact Or.inr isKept
        | late _ isKept => exact Or.inr isKept
      · rw [calls_record_of_ne isIts] at isAnswered
        exact Or.inl isAnswered
  | @keeps mover _ _ _ notKept =>
      by_cases isIts : caller = mover
      · rw [isIts, calls_record_self] at isAnswered
        cases isAnswered
        refine Or.inr ((Loader.kept?_keep_self _ _ _).trans ?_)
        rw [notKept, Option.getD_none]
      · rw [calls_record_of_ne isIts] at isAnswered
        exact Or.inl isAnswered
  | changes _ _ _ => exact Or.inl isAnswered
  | clears => exact Or.inl isAnswered

/-- A document was kept before, or the call that parsed it keeps it now. -/
theorem kept_origin
    {name : String}
    {document : Document}
    (isKept : later.store.loader.kept? name = some document) :
    shared.store.loader.kept? name = some document ∨
      ∃ winner,
        shared.calls winner = some (.parsed name document) ∧
          later.calls winner = some (.answered name document) := by
  cases step with
  | taken _ => exact Or.inl isKept
  | idle _ => exact Or.inl isKept
  | records _ => exact Or.inl isKept
  | @keeps mover other parsed hadParsed notKept =>
      by_cases isNamed : name = other
      · subst isNamed
        have isOwn := (Loader.kept?_keep_self _ _ _).symm.trans isKept
        rw [notKept, Option.getD_none, Option.some.injEq] at isOwn
        subst isOwn
        exact Or.inr ⟨mover, hadParsed, calls_record_self _ _ _⟩
      · exact Or.inl
          ((Loader.kept?_keep_of_ne _ _ isNamed).symm.trans isKept)
  | changes _ _ _ => exact Or.inl isKept
  | clears => cases isKept

end Steps

/-- The store after a list of moves. -/
def after
    (shared : SharedStore)
    (moves : List Move) :
    SharedStore :=
  moves.foldl move shared

@[simp] theorem after_cons
    (shared : SharedStore)
    (next : Move)
    (rest : List Move) :
    shared.after (next :: rest) = (shared.move next).after rest :=
  rfl

/-- The moves of two lists are made one list after the other. -/
theorem after_append
    (shared : SharedStore)
    (earlier later : List Move) :
    shared.after (earlier ++ later) = (shared.after earlier).after later :=
  List.foldl_append

/-- The stores of an interleaving are those after its first moves. -/
theorem getElem?_run
    (shared : SharedStore)
    {moves : List Move}
    {moment : Nat}
    (isMoment : moment ≤ moves.length) :
    (shared.run moves)[moment]? =
      some (shared.after (moves.take moment)) := by
  induction moves generalizing shared moment with
  | nil =>
      rw [List.length_nil, Nat.le_zero] at isMoment
      rw [isMoment]
      rfl
  | cons next rest inductionHypothesis =>
      cases moment with
      | zero =>
          rfl
      | succ moment =>
          rw [run, List.getElem?_cons_succ, List.take_succ_cons, after_cons]
          exact inductionHypothesis _ (Nat.le_of_succ_le_succ isMoment)

/-- A call that has a document never loses it, whatever moves are made. -/
theorem hasDocument_after
    {shared : SharedStore}
    {caller : Nat}
    (before :
      (shared.calls caller).any CallProgress.hasDocument = true)
    (moves : List Move) :
    ((shared.after moves).calls caller).any CallProgress.hasDocument =
      true := by
  induction moves generalizing shared with
  | nil =>
      exact before
  | cons next rest inductionHypothesis =>
      exact inductionHypothesis ((shared.steps_move next).hasDocument before)

/-- A document that is kept stays kept while the loader is not cleared. -/
theorem kept?_after_of_some
    {shared : SharedStore}
    {name : String}
    {document : Document}
    (isKept : shared.store.loader.kept? name = some document)
    {moves : List Move}
    (noClear : Move.clear ∉ moves) :
    (shared.after moves).store.loader.kept? name = some document := by
  induction moves generalizing shared with
  | nil =>
      exact isKept
  | cons next rest inductionHypothesis =>
      simp only [List.mem_cons, not_or] at noClear
      exact inductionHypothesis
        ((shared.steps_move next).kept?_of_some (Ne.symm noClear.1) isKept)
        noClear.2

end SharedStore

end AnchorScript
