import AnchorScript.Proofs.Content.Answers
import Mathlib.Data.List.Induction

namespace AnchorScript

/-!
# The law of loading

What a call gives is fixed by the history before it. A name was loaded when a
call for it has succeeded and nothing was cleared since; the document that every
later call sees is that of the text which the source had at the first such call,
whatever was written, removed or loaded meanwhile.

The invariant `Remembers` says this of what a loader keeps under one name. A
step lemma shows that one action preserves it, and induction over the history
that every run does.
-/

namespace ContentStore

/--
After the earlier actions a call for the name succeeds, and nothing is cleared
since.
-/
def LoadedAt
    (start : ContentStore)
    (past : List Action)
    (name : String)
    (earlier : List Action) :
    Prop :=
  ∃ request between,
    past = earlier ++ .call request :: between ∧
      Action.clear ∉ between ∧
      request.IsFor start.loader.names name ∧
      (start.run earlier).1.Succeeds request

/-- The first of the calls that load the name, counted from the last clear. -/
def FirstLoadedAt
    (start : ContentStore)
    (past : List Action)
    (name : String)
    (earlier : List Action) :
    Prop :=
  start.LoadedAt past name earlier ∧
    ∀ before,
      start.LoadedAt past name before → earlier.length ≤ before.length

/-- The text that the source had when it was loaded first. -/
def FirstText
    (start : ContentStore)
    (past : List Action)
    (name : String)
    (text : String) :
    Prop :=
  ∃ earlier,
    start.FirstLoadedAt past name earlier ∧
      (start.run earlier).1.tree.read name = .ok text

/-- What is kept under a name after a history. -/
def Remembers
    (start : ContentStore)
    (past : List Action)
    (name : String) :
    Option Document → Prop
  | none => ∀ earlier, ¬start.LoadedAt past name earlier
  | some document =>
      ∃ text,
        start.FirstText past name text ∧ document = Document.ofText text

/-- A load of a longer history is one of the shorter history or its last action. -/
theorem loadedAt_concat
    {start : ContentStore}
    {past : List Action}
    {action : Action}
    {name : String}
    {earlier : List Action} :
    start.LoadedAt (past ++ [action]) name earlier ↔
      (action ≠ .clear ∧ start.LoadedAt past name earlier) ∨
        (earlier = past ∧
          ∃ request,
            action = .call request ∧
              request.IsFor start.loader.names name ∧
              (start.run past).1.Succeeds request) := by
  constructor
  · rintro ⟨request, between, shape, noClear, isNamed, succeeds⟩
    rcases List.eq_nil_or_concat between with isLast | ⟨others, last, shapeEnd⟩
    · subst isLast
      obtain ⟨samePast, sameAction⟩ := List.append_inj' shape rfl
      subst samePast
      exact Or.inr
        ⟨rfl, request, List.singleton_inj.mp sameAction, isNamed, succeeds⟩
    · rw [List.concat_eq_append] at shapeEnd
      subst shapeEnd
      have shapes :
          past ++ [action] = (earlier ++ .call request :: others) ++ [last] := by
        simpa using shape
      obtain ⟨samePast, sameAction⟩ := List.append_inj' shapes rfl
      simp only [List.mem_append, List.mem_singleton, not_or] at noClear
      refine Or.inl
        ⟨?_, request, others, samePast, noClear.1, isNamed, succeeds⟩
      rw [List.singleton_inj.mp sameAction]
      exact Ne.symm noClear.2
  · rintro (⟨notClear, request, between, shape, noClear, isNamed, succeeds⟩ |
      ⟨rfl, request, rfl, isNamed, succeeds⟩)
    · refine ⟨request, between ++ [action], ?_, ?_, isNamed, succeeds⟩
      · rw [shape]
        simp
      · simp only [List.mem_append, List.mem_singleton, not_or]
        exact ⟨noClear, Ne.symm notClear⟩
    · exact ⟨request, [], rfl, List.not_mem_nil, isNamed, succeeds⟩

private theorem length_lt_of_loadedAt
    {start : ContentStore}
    {past : List Action}
    {name : String}
    {earlier : List Action}
    (loaded : start.LoadedAt past name earlier) :
    earlier.length < past.length := by
  obtain ⟨request, between, shape, _⟩ := loaded
  rw [shape, List.length_append, List.length_cons]
  omega

/-- A name that was loaded keeps its first text through everything but a clear. -/
theorem FirstText.concat
    {start : ContentStore}
    {past : List Action}
    {name : String}
    {text : String}
    (first : start.FirstText past name text)
    {action : Action}
    (notClear : action ≠ .clear) :
    start.FirstText (past ++ [action]) name text := by
  obtain ⟨earlier, ⟨loaded, least⟩, isRead⟩ := first
  refine
    ⟨earlier, ⟨loadedAt_concat.mpr (Or.inl ⟨notClear, loaded⟩), ?_⟩, isRead⟩
  intro before loadedBefore
  rcases loadedAt_concat.mp loadedBefore with ⟨_, inPast⟩ | ⟨isPast, _⟩
  · exact least before inPast
  · rw [isPast]
    exact Nat.le_of_lt (length_lt_of_loadedAt loaded)

/-- A name that was not loaded gets its first text from a call that succeeds. -/
theorem FirstText.of_call
    {start : ContentStore}
    {past : List Action}
    {request : Call}
    {text : String}
    (notLoaded :
      ∀ earlier,
        ¬start.LoadedAt past
          (request.sourceName start.loader.names) earlier)
    (succeeds : (start.run past).1.Succeeds request)
    (isRead :
      (start.run past).1.tree.read
        (request.sourceName start.loader.names) = .ok text) :
    start.FirstText (past ++ [.call request])
      (request.sourceName start.loader.names) text := by
  refine ⟨past, ⟨?_, ?_⟩, isRead⟩
  · exact loadedAt_concat.mpr (Or.inr
      ⟨rfl, request, rfl, Call.isFor_iff.mpr rfl, succeeds⟩)
  · intro before loadedBefore
    rcases loadedAt_concat.mp loadedBefore with ⟨_, inPast⟩ | ⟨isPast, _⟩
    · exact absurd inPast (notLoaded before)
    · exact Nat.le_of_eq (congrArg List.length isPast.symm)

/--
What is remembered stays so when no call for the name succeeds and nothing is
cleared.
-/
private theorem Remembers.concat
    {start : ContentStore}
    {past : List Action}
    {name : String}
    {kept? : Option Document}
    (remembers : start.Remembers past name kept?)
    {action : Action}
    (notClear : action ≠ .clear)
    (noLoad :
      kept? = none →
        ∀ request,
          action = .call request →
            request.IsFor start.loader.names name →
              ¬(start.run past).1.Succeeds request) :
    start.Remembers (past ++ [action]) name kept? := by
  cases kept? with
  | none =>
      intro earlier loaded
      rcases loadedAt_concat.mp loaded with
        ⟨_, inPast⟩ | ⟨_, request, isCall, isNamed, succeeds⟩
      · exact remembers earlier inPast
      · exact noLoad rfl request isCall isNamed succeeds
  | some document =>
      obtain ⟨text, first, isText⟩ := remembers
      exact ⟨text, first.concat notClear, isText⟩

/-- One action preserves what is remembered under every name. -/
theorem remembers_step
    {start : ContentStore}
    {past : List Action}
    {name : String}
    (action : Action)
    (remembers :
      start.Remembers past name ((start.run past).1.loader.kept? name)) :
    start.Remembers (past ++ [action]) name
      (((start.run past).1.step action).1.loader.kept? name) := by
  cases action with
  | write written content =>
      exact remembers.concat (by simp) (by simp)
  | makeDirectory made =>
      exact remembers.concat (by simp) (by simp)
  | remove removed =>
      exact remembers.concat (by simp) (by simp)
  | clear =>
      intro earlier loaded
      rcases loadedAt_concat.mp loaded with
        ⟨notClear, _⟩ | ⟨_, request, isCall, _⟩
      · exact notClear rfl
      · cases isCall
  | call request =>
      obtain ⟨next, outcome, answered, how⟩ :=
        (start.run past).1.exists_answers request
      have succeeds := (start.run past).1.succeeds_iff request
      rw [step, answered]
      cases how with
      | refused outside =>
          refine remembers.concat (by simp) ?_
          rintro _ other isCall _ isLoad
          cases isCall
          rw [(succeeds.mp isLoad).1] at outside
          cases outside
      | cached inside isKept =>
          refine remembers.concat (by simp) ?_
          rintro notKept other isCall isNamed _
          cases isCall
          rw [names_run, Call.isFor_iff.mp isNamed, notKept] at isKept
          cases isKept
      | unreadable inside notKept failed =>
          refine remembers.concat (by simp) ?_
          rintro _ other isCall _ isLoad
          cases isCall
          rcases (succeeds.mp isLoad).2 with isKept | ⟨text, isRead⟩
          · exact isKept notKept
          · rw [failed] at isRead
            cases isRead
      | @loaded text inside notKept isRead =>
          have isLoad :=
            succeeds.mpr ⟨inside, Or.inr ⟨text, isRead⟩⟩
          rw [names_run] at notKept isRead ⊢
          by_cases isNamed : name = request.sourceName start.loader.names
          · subst isNamed
            rw [Loader.kept?_keep_self, notKept]
            rw [notKept] at remembers
            exact ⟨text, .of_call remembers isLoad isRead, rfl⟩
          · rw [Loader.kept?_keep_of_ne _ _ isNamed]
            refine remembers.concat (by simp) ?_
            rintro _ other isCall isOther
            cases isCall
            exact absurd (Call.isFor_iff.mp isOther).symm isNamed

/-- A loader that starts with nothing remembers its history, however long that is. -/
theorem remembers_run
    {start : ContentStore}
    (isFresh : start.loader.kept = [])
    (past : List Action)
    (name : String) :
    start.Remembers past name ((start.run past).1.loader.kept? name) := by
  induction past using List.reverseRecOn with
  | nil =>
      have notKept : (start.run []).1.loader.kept? name = none := by
        rw [run, Loader.kept?, isFresh]
        rfl
      rw [notKept]
      rintro earlier ⟨request, between, shape, _⟩
      exact absurd shape.symm (by simp)
  | append_singleton past action inductionHypothesis =>
      rw [run_concat]
      exact remembers_step action inductionHypothesis

/-- A history has one first text for a name. -/
theorem FirstText.unique
    {start : ContentStore}
    {past : List Action}
    {name : String}
    {left right : String}
    (leftFirst : start.FirstText past name left)
    (rightFirst : start.FirstText past name right) :
    left = right := by
  obtain ⟨leftEarlier, ⟨leftLoaded, leftLeast⟩, leftRead⟩ := leftFirst
  obtain ⟨rightEarlier, ⟨rightLoaded, rightLeast⟩, rightRead⟩ := rightFirst
  have sameLength : leftEarlier.length = rightEarlier.length :=
    Nat.le_antisymm
      (leftLeast rightEarlier rightLoaded)
      (rightLeast leftEarlier leftLoaded)
  obtain ⟨_, _, leftShape, _⟩ := leftLoaded
  obtain ⟨_, _, rightShape, _⟩ := rightLoaded
  have same : leftEarlier = rightEarlier :=
    (List.append_inj (leftShape.symm.trans rightShape) sameLength).1
  rw [same, rightRead] at leftRead
  exact (Except.ok.inj leftRead).symm

/-- Whether a name is kept, as a number. -/
def keptCount (store : ContentStore) (name : String) : Nat :=
  (store.loader.kept? name).isSome.toNat

/-- How often the outcomes report that a name was loaded. -/
def loadCount
    (name : String)
    (outcomes : List (Outcome Content)) :
    Nat :=
  (outcomes.flatMap Outcome.events).countP fun
    | .loaded other _ _ => other = name
    | _ => false

/-- Loading a text under a name reports one load of this name, and of no other. -/
private theorem loadCount_loadingEvents
    (name other : String)
    (reading : Reading)
    (result : Except Fault Content) :
    loadCount name [⟨result, Loader.loadingEvents other reading⟩] =
      if other = name then 1 else 0 := by
  have noLoads :
      (reading.events.map LoadEvent.reading).countP (fun
        | .loaded other _ _ => other = name
        | _ => false) = 0 := by
    rw [List.countP_eq_zero]
    intro event member
    obtain ⟨read, _, isEvent⟩ := List.mem_map.mp member
    simp [← isEvent]
  simp only [loadCount, Loader.loadingEvents, List.flatMap_singleton,
    List.countP_append, noLoads, Nat.zero_add, List.countP_singleton,
    decide_eq_true_eq]

/-- An action other than a clear reports a load exactly when it makes a name kept. -/
theorem loadCount_step
    (store : ContentStore)
    {action : Action}
    (notClear : action ≠ .clear)
    (name : String) :
    loadCount name (store.step action).2.toList + store.keptCount name =
      (store.step action).1.keptCount name := by
  cases action with
  | write written content => exact Nat.zero_add _
  | makeDirectory made => exact Nat.zero_add _
  | remove removed => exact Nat.zero_add _
  | clear => exact absurd rfl notClear
  | call request =>
      obtain ⟨next, outcome, answered, how⟩ := store.exists_answers request
      simp only [step, answered, Option.toList_some]
      cases how with
      | refused _ => exact Nat.zero_add _
      | cached _ _ => exact Nat.zero_add _
      | unreadable _ _ _ => exact Nat.zero_add _
      | loaded _ notKept _ =>
          rw [loadCount_loadingEvents]
          by_cases isNamed :
              request.sourceName store.loader.names = name
          · subst isNamed
            simp [keptCount, Loader.kept?_keep_self, notKept]
          · rw [if_neg isNamed, Nat.zero_add]
            simp only [keptCount, Loader.kept?_keep_of_ne _ _ (Ne.symm isNamed)]

/-- While nothing is cleared, the loads of a name are what makes it kept. -/
theorem loadCount_run
    (store : ContentStore)
    {stretch : List Action}
    (noClear : Action.clear ∉ stretch)
    (name : String) :
    loadCount name (store.run stretch).2 + store.keptCount name =
      (store.run stretch).1.keptCount name := by
  induction stretch generalizing store with
  | nil =>
      exact Nat.zero_add _
  | cons action rest inductionHypothesis =>
      simp only [List.mem_cons, not_or] at noClear
      have first := store.loadCount_step (Ne.symm noClear.1) name
      have later :=
        inductionHypothesis (store.step action).1 noClear.2
      have split :
          loadCount name (store.run (action :: rest)).2 =
            loadCount name (store.step action).2.toList +
              loadCount name ((store.step action).1.run rest).2 := by
        simp only [loadCount, run, List.flatMap_append, List.countP_append]
      calc
        loadCount name (store.run (action :: rest)).2 + store.keptCount name
            = loadCount name ((store.step action).1.run rest).2 +
                (loadCount name (store.step action).2.toList +
                  store.keptCount name) := by
              rw [split]
              omega
        _ = loadCount name ((store.step action).1.run rest).2 +
              (store.step action).1.keptCount name := by
              rw [first]
        _ = (store.run (action :: rest)).1.keptCount name := later

/-- While nothing is cleared, a name is loaded at most once. -/
theorem loadCount_run_le_one
    (store : ContentStore)
    {stretch : List Action}
    (noClear : Action.clear ∉ stretch)
    (name : String) :
    loadCount name (store.run stretch).2 ≤ 1 := by
  have counted := store.loadCount_run noClear name
  have bound : (store.run stretch).1.keptCount name ≤ 1 :=
    Bool.toNat_le _
  omega

section History

variable
  {start : ContentStore}
  (isFresh : start.loader.kept = [])
  (past : List Action)

include isFresh

/-- A name is kept exactly when it was loaded since the last clear. -/
theorem kept?_ne_none_iff (name : String) :
    (start.run past).1.loader.kept? name ≠ none ↔
      ∃ earlier, start.LoadedAt past name earlier := by
  have remembers := remembers_run isFresh past name
  cases isKept : (start.run past).1.loader.kept? name with
  | none =>
      rw [isKept] at remembers
      exact
        ⟨fun kept => absurd rfl kept,
          fun ⟨earlier, loaded⟩ => absurd loaded (remembers earlier)⟩
  | some document =>
      rw [isKept] at remembers
      obtain ⟨text, ⟨earlier, ⟨loaded, _⟩, _⟩, _⟩ := remembers
      exact ⟨fun _ => ⟨earlier, loaded⟩, fun _ => Option.some_ne_none document⟩

/-- A call succeeds when its name is fine and was loaded, or can be read now. -/
theorem succeeds_run_iff (request : Call) :
    (start.run past).1.Succeeds request ↔
      SourceName.isInside (request.sourceName start.loader.names) = true ∧
        ((∃ earlier,
            start.LoadedAt past
              (request.sourceName start.loader.names) earlier) ∨
          ∃ text,
            (start.run past).1.tree.read
              (request.sourceName start.loader.names) = .ok text) := by
  rw [succeeds_iff, names_run, kept?_ne_none_iff isFresh past]

/--
What a call gives comes from the text that its source had when it was loaded
first; each kind of call takes its own content from it.
-/
theorem exists_firstText_of_ok
    (request : Call)
    {found : Content}
    (succeeded :
      ((start.run past).1.answer request).2.result = .ok found) :
    ∃ text,
      start.FirstText (past ++ [.call request])
          (request.sourceName start.loader.names) text ∧
        request.Gives start.loader.names (Document.ofText text) found := by
  have remembers :=
    remembers_run isFresh past (request.sourceName start.loader.names)
  have isLoad : (start.run past).1.Succeeds request := ⟨found, succeeded⟩
  obtain ⟨next, outcome, answered, how⟩ :=
    (start.run past).1.exists_answers request
  rw [answered] at succeeded
  cases how with
  | refused _ => cases succeeded
  | unreadable _ _ _ => cases succeeded
  | @cached document _ isKept =>
      rw [names_run] at isKept succeeded
      rw [isKept] at remembers
      obtain ⟨text, first, rfl⟩ := remembers
      cases succeeded
      exact ⟨text, first.concat (by simp), Call.gives_contentOf _⟩
  | @loaded text _ notKept isRead =>
      rw [names_run] at notKept isRead succeeded
      rw [notKept] at remembers
      cases succeeded
      exact
        ⟨text, .of_call remembers isLoad isRead, Call.gives_contentOf _⟩

/-- A call for a name that was loaded only reports that it is kept. -/
theorem events_of_loadedAt
    {request : Call}
    {earlier : List Action}
    (loaded :
      start.LoadedAt past
        (request.sourceName start.loader.names) earlier) :
    ((start.run past).1.answer request).2.events =
      [.cached (request.sourceName start.loader.names)] := by
  have isKept :=
    (kept?_ne_none_iff isFresh past _).mpr ⟨earlier, loaded⟩
  obtain ⟨next, outcome, answered, how⟩ :=
    (start.run past).1.exists_answers request
  rw [answered]
  cases how with
  | refused outside =>
      -- The earlier call for the name succeeded, so the name is no reason to refuse.
      obtain ⟨other, _, _, _, isNamed, succeeds⟩ := loaded
      have inside := ((succeeds_iff _ _).mp succeeds).1
      rw [names_run, Call.isFor_iff.mp isNamed] at inside
      rw [names_run, inside] at outside
      cases outside
  | cached _ _ =>
      rw [names_run]
  | unreadable _ notKept _ =>
      rw [names_run] at notKept
      exact absurd notKept isKept
  | loaded _ notKept _ =>
      rw [names_run] at notKept
      exact absurd notKept isKept

end History

/--
The law of loading, for a new loader on any tree and after any history. A call
for a name succeeds when the name is fine and was loaded since the last clear or
can be read now. It then gives what a call of its kind gives for the document of
the first text. For a name that was loaded it only reports that it is kept. When
it fails, nothing changes. And until the next clear, a name is loaded at most
once.
-/
theorem loading_law
    (names : SourceNames)
    (tree : FileTree)
    (past : List Action)
    (request : Call) :
    let start : ContentStore := ⟨tree, .ofNames names⟩
    let store := (start.run past).1
    let name := request.sourceName names
    let outcome := (store.answer request).2
    request.IsFor names name ∧
      ((∃ found, outcome.result = .ok found) ↔
        SourceName.isInside name = true ∧
          ((∃ earlier, start.LoadedAt past name earlier) ∨
            ∃ text, store.tree.read name = .ok text)) ∧
      (∀ found,
        outcome.result = .ok found →
          ∃ text,
            start.FirstText (past ++ [.call request]) name text ∧
              request.Gives names (Document.ofText text) found) ∧
      ((∃ earlier, start.LoadedAt past name earlier) →
        outcome.events = [.cached name]) ∧
      (∀ fault,
        outcome.result = .error fault →
          (store.answer request).1 = store) ∧
      (∀ stretch,
        Action.clear ∉ stretch →
          ∀ other, loadCount other (store.run stretch).2 ≤ 1) := by
  intro start store name outcome
  have isFresh : start.loader.kept = [] := rfl
  refine ⟨?name, ?success, ?value, ?events, ?failure, ?loads⟩
  case name =>
    exact Call.isFor_iff.mpr rfl
  case success =>
    exact succeeds_run_iff isFresh past request
  case value =>
    intro found succeeded
    exact exists_firstText_of_ok isFresh past request succeeded
  case events =>
    rintro ⟨earlier, loaded⟩
    exact events_of_loadedAt isFresh past loaded
  case failure =>
    intro fault failed
    exact answer_eq_self_of_error failed
  case loads =>
    intro stretch noClear other
    exact store.loadCount_run_le_one noClear other

/--
A source that was loaded is still given when its bytes are no text any more: the
page is that of the text which it had before.
-/
theorem loading_law_spoiled :
    let text := "[A] -> [Feature:b]"
    let start : ContentStore := ⟨.empty, .ofNames {}⟩
    let past : List Action :=
      [.write "a" text.toUTF8, .call (.document "a"), .write "a" ⟨#[255]⟩]
    let outcome := ((start.run past).1.answer (.page "a")).2
    outcome.result = .ok (.page (Page.ofDocument (Document.ofText text))) ∧
      outcome.events = [.cached "a"] := by
  intro text start past outcome
  have isRead :
      (start.run [.write "a" text.toUTF8]).1.tree.read "a" = .ok text := by
    decide +kernel
  have succeeds :
      (start.run [.write "a" text.toUTF8]).1.Succeeds (.document "a") :=
    (succeeds_iff _ _).mpr ⟨by decide, Or.inr ⟨text, isRead⟩⟩
  have notLoaded (earlier : List Action) :
      ¬start.LoadedAt [.write "a" text.toUTF8] "a" earlier := by
    rintro ⟨request, between, shape, _⟩
    cases earlier <;> simp at shape
  have loaded : start.LoadedAt past "a" [.write "a" text.toUTF8] :=
    ⟨.document "a", [.write "a" ⟨#[255]⟩], rfl, by simp, .document "a",
      succeeds⟩
  obtain ⟨_, success, value, events, _⟩ :=
    loading_law {} .empty past (.page "a")
  obtain ⟨found, given⟩ := success.mpr ⟨by decide, Or.inl ⟨_, loaded⟩⟩
  obtain ⟨firstText, isFirst, gives⟩ := value found given
  have written : start.FirstText (past ++ [.call (.page "a")]) "a" text := by
    have first := FirstText.of_call notLoaded succeeds isRead
    exact (first.concat (by simp)).concat (by simp)
  cases isFirst.unique written
  cases gives
  exact ⟨given, events ⟨_, loaded⟩⟩

end ContentStore

end AnchorScript
