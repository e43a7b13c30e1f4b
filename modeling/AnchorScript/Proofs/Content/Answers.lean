import AnchorScript.Content.History

namespace AnchorScript

/-!
# What a call can do

A loading call ends in one of four ways: its name is refused, its document is
kept already, its source cannot be read, or its source is read and the document
is kept. What a call does to the store and what it reports follow from the way
it ends, and everything that is said about histories of calls rests on these
four cases. What each kind of call needs and gives is said beside them.
-/

namespace Call

/-- The name of the source that a call needs; a fixed content has a configured one. -/
inductive IsFor (names : SourceNames) : Call → String → Prop where
  | document (name : String) : IsFor names (.document name) name
  | page (name : String) : IsFor names (.page name) name
  | navigation : IsFor names .navigation names.navigation
  | tools : IsFor names .tools names.tools
  | docsNavigation : IsFor names .docsNavigation names.docsNavigation
  | comparison : IsFor names .comparison names.comparison

/-- What a call gives when its source has the given document. -/
inductive Gives
    (names : SourceNames)
    (source : Document) :
    Call → Content → Prop where
  | document (name : String) :
      Gives names source (.document name) (.document source)
  | page (name : String) :
      Gives names source (.page name) (.page (Page.ofDocument source))
  | navigation :
      Gives names source .navigation
        (.navigation (Navigation.ofDocument source))
  | tools :
      Gives names source .tools
        (.tools (ToolsPage.ofDocument names.toolSources source))
  | docsNavigation :
      Gives names source .docsNavigation
        (.docsNavigation (DocsSection.allOf source))
  | comparison :
      Gives names source .comparison
        (.comparison (ComparisonPage.ofDocument source))

variable
  {names : SourceNames}
  {call : Call}

/-- Every call needs one source. -/
theorem isFor_iff {name : String} :
    call.IsFor names name ↔ call.sourceName names = name := by
  constructor
  · intro isFor
    cases isFor <;> rfl
  · rintro rfl
    cases call with
    | document name => exact .document name
    | page name => exact .page name
    | navigation => exact .navigation
    | tools => exact .tools
    | docsNavigation => exact .docsNavigation
    | comparison => exact .comparison

/-- What a call takes from a document is what it gives. -/
theorem gives_contentOf (source : Document) :
    call.Gives names source (call.contentOf names source) := by
  cases call with
  | document name => exact .document name
  | page name => exact .page name
  | navigation => exact .navigation
  | tools => exact .tools
  | docsNavigation => exact .docsNavigation
  | comparison => exact .comparison

end Call

namespace ContentStore

/-- The ways in which a call can end, each with the next store and the outcome. -/
inductive Answers
    (store : ContentStore)
    (request : Call) :
    ContentStore → Outcome Content → Prop where
  | refused
      (outside :
        SourceName.isInside (request.sourceName store.loader.names) = false) :
      Answers store request store
        ⟨.error (.invalidName (request.sourceName store.loader.names)), []⟩
  | cached
      {found : Document}
      (inside :
        SourceName.isInside (request.sourceName store.loader.names) = true)
      (isKept :
        store.loader.kept? (request.sourceName store.loader.names) =
          some found) :
      Answers store request store
        ⟨.ok (request.contentOf store.loader.names found),
          [.cached (request.sourceName store.loader.names)]⟩
  | unreadable
      {cause : ReadCause}
      (inside :
        SourceName.isInside (request.sourceName store.loader.names) = true)
      (notKept :
        store.loader.kept? (request.sourceName store.loader.names) = none)
      (failed :
        store.tree.read (request.sourceName store.loader.names) =
          .error cause) :
      Answers store request store
        ⟨.error
          (.unreadable (request.sourceName store.loader.names) cause), []⟩
  | loaded
      {text : String}
      (inside :
        SourceName.isInside (request.sourceName store.loader.names) = true)
      (notKept :
        store.loader.kept? (request.sourceName store.loader.names) = none)
      (isRead :
        store.tree.read (request.sourceName store.loader.names) = .ok text) :
      Answers store request
        { store with
          loader :=
            store.loader.keep
              (request.sourceName store.loader.names)
              (Document.ofText text) }
        ⟨.ok (request.contentOf store.loader.names (Document.ofText text)),
          Loader.loadingEvents
            (request.sourceName store.loader.names) (Reading.ofText text)⟩

/-- Every call ends in one of these ways. -/
theorem exists_answers
    (store : ContentStore)
    (request : Call) :
    ∃ next outcome,
      store.answer request = (next, outcome) ∧
        Answers store request next outcome := by
  cases inside : SourceName.isInside (request.sourceName store.loader.names) with
  | false =>
      refine ⟨_, _, ?_, .refused inside⟩
      simp [answer, Loader.answer, Loader.document, inside, Outcome.map,
        Except.map]
  | true =>
      cases isKept :
          store.loader.kept? (request.sourceName store.loader.names) with
      | some found =>
          refine ⟨_, _, ?_, .cached inside isKept⟩
          simp [answer, Loader.answer, Loader.document, inside, isKept,
            Outcome.map, Except.map]
      | none =>
          cases isRead :
              store.tree.read (request.sourceName store.loader.names) with
          | error cause =>
              refine ⟨_, _, ?_, .unreadable inside isKept isRead⟩
              simp [answer, Loader.answer, Loader.document, inside, isKept,
                isRead, Outcome.map, Except.map]
          | ok text =>
              refine ⟨_, _, ?_, .loaded inside isKept isRead⟩
              simp [answer, Loader.answer, Loader.document, inside, isKept,
                isRead, Outcome.map, Except.map, Document.ofText]

/-- A call that gives its content. -/
def Succeeds
    (store : ContentStore)
    (request : Call) :
    Prop :=
  ∃ found, (store.answer request).2.result = .ok found

/--
A call gives its content when its name is fine and its source is kept or can be
read.
-/
theorem succeeds_iff
    (store : ContentStore)
    (request : Call) :
    store.Succeeds request ↔
      SourceName.isInside (request.sourceName store.loader.names) = true ∧
        (store.loader.kept? (request.sourceName store.loader.names) ≠ none ∨
          ∃ text,
            store.tree.read (request.sourceName store.loader.names) =
              .ok text) := by
  obtain ⟨next, outcome, answered, how⟩ := store.exists_answers request
  rw [Succeeds, answered]
  cases how with
  | refused outside =>
      simp [outside]
  | cached inside isKept =>
      simp [inside, isKept]
  | unreadable inside notKept failed =>
      simp [inside, notKept, failed]
  | loaded inside notKept isRead =>
      simp [inside, isRead]

/-- A call that fails leaves everything as it was. -/
theorem answer_eq_self_of_error
    {store : ContentStore}
    {request : Call}
    {fault : Fault}
    (failed : (store.answer request).2.result = .error fault) :
    (store.answer request).1 = store := by
  obtain ⟨next, outcome, answered, how⟩ := store.exists_answers request
  rw [answered] at failed ⊢
  cases how with
  | refused _ => rfl
  | cached _ _ => rfl
  | unreadable _ _ _ => rfl
  | loaded _ _ _ => cases failed

@[simp] theorem names_step
    (store : ContentStore)
    (action : Action) :
    (store.step action).1.loader.names = store.loader.names := by
  cases action with
  | write name content => rfl
  | makeDirectory name => rfl
  | remove name => rfl
  | clear => rfl
  | call request =>
      obtain ⟨next, outcome, answered, how⟩ := store.exists_answers request
      rw [step, answered]
      cases how with
      | refused _ => rfl
      | cached _ _ => rfl
      | unreadable _ _ _ => rfl
      | loaded _ notKept _ => rw [Loader.keep_of_none notKept]

/-- A run of two histories is the run of the second after the first. -/
theorem run_append
    (store : ContentStore)
    (earlier later : List Action) :
    store.run (earlier ++ later) =
      (((store.run earlier).1.run later).1,
        (store.run earlier).2 ++ ((store.run earlier).1.run later).2) := by
  induction earlier generalizing store with
  | nil =>
      rfl
  | cons action rest inductionHypothesis =>
      simp only [List.cons_append, run, inductionHypothesis,
        List.append_assoc]

/-- The store after a history and one more action. -/
theorem run_concat
    (store : ContentStore)
    (past : List Action)
    (action : Action) :
    (store.run (past ++ [action])).1 =
      ((store.run past).1.step action).1 := by
  rw [run_append]
  rfl

/-- No history changes the names of the fixed sources. -/
@[simp] theorem names_run
    (store : ContentStore)
    (past : List Action) :
    (store.run past).1.loader.names = store.loader.names := by
  induction past generalizing store with
  | nil =>
      rfl
  | cons action rest inductionHypothesis =>
      rw [run, inductionHypothesis, names_step]

end ContentStore

end AnchorScript
