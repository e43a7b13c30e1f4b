import AnchorScript.Proofs.Content.Confinement

namespace AnchorScript

/-!
# What is not found

A walk through a content tree ends at a place, breaks off in a directory that has
no member of the next name, or is blocked by a file that it would have to enter.
Loading says that a source was not found just when the walk breaks off. So a
source that is not found does not stand at its name; but a name that goes on
below a file, or that no file can have, leads nowhere either, and is answered as
another fault.
-/

namespace FileTree

/-- A place stands at the end of a path. -/
inductive StandsAt : FileTree → List String → FileTree → Prop where
  | here (place : FileTree) : StandsAt place [] place
  | stay
      {members : List (String × FileTree)}
      {segment : String}
      {rest : List String}
      {place : FileTree}
      (stays : SourceName.staysPut segment = true)
      (onward : StandsAt (directory members) rest place) :
      StandsAt (directory members) (segment :: rest) place
  | enter
      {members : List (String × FileTree)}
      {segment : String}
      {member : FileTree}
      {rest : List String}
      {place : FileTree}
      (moves : SourceName.staysPut segment = false)
      (isMember : members.lookup segment = some member)
      (onward : StandsAt member rest place) :
      StandsAt (directory members) (segment :: rest) place

/-- The path leads to a directory that has no member of the next name. -/
def BreaksOff (tree : FileTree) (path : List String) : Prop :=
  ∃ before segment after members,
    path = before ++ segment :: after ∧
      tree.StandsAt before (directory members) ∧
      SourceName.staysPut segment = false ∧
      members.lookup segment = none

/-- The path leads to a file and goes on. -/
def IsBlocked (tree : FileTree) (path : List String) : Prop :=
  ∃ before segment after content,
    path = before ++ segment :: after ∧
      tree.StandsAt before (file content)

/-- Something stands at the end of a path just when following the path finds it. -/
theorem follow_eq_ok_iff
    {tree place : FileTree}
    {path : List String} :
    tree.follow path = .ok place ↔ tree.StandsAt path place := by
  constructor
  · intro found
    induction path generalizing tree with
    | nil =>
        cases found
        exact .here place
    | cons segment rest inductionHypothesis =>
        cases tree with
        | file content =>
            cases found
        | directory members =>
            simp only [follow] at found
            cases stays : SourceName.staysPut segment with
            | true =>
                rw [if_pos stays] at found
                exact .stay stays (inductionHypothesis found)
            | false =>
                rw [if_neg (by simp [stays])] at found
                cases isMember : members.lookup segment with
                | none =>
                    simp only [isMember] at found
                    cases found
                | some member =>
                    simp only [isMember] at found
                    exact .enter stays isMember (inductionHypothesis found)
  · intro stands
    induction stands with
    | here place =>
        rfl
    | stay stays _ inductionHypothesis =>
        rw [follow, if_pos stays, inductionHypothesis]
    | enter moves isMember _ inductionHypothesis =>
        rw [follow, if_neg (by simp [moves])]
        simp only [isMember, inductionHypothesis]

/-- The two ways in which a walk can find nothing. -/
def FailsWith
    (tree : FileTree)
    (path : List String)
    (cause : ReadCause) :
    Prop :=
  cause = .missing ∧ tree.BreaksOff path ∨
    cause = .notDirectory ∧ tree.IsBlocked path

/-- How a walk fails is how it fails behind its first step. -/
private theorem FailsWith.cons
    {tree next : FileTree}
    {segment : String}
    {rest : List String}
    {cause : ReadCause}
    (fails : next.FailsWith rest cause)
    (firstStep :
      ∀ {before place},
        next.StandsAt before place →
          tree.StandsAt (segment :: before) place) :
    tree.FailsWith (segment :: rest) cause := by
  rcases fails with
    ⟨isMissing, before, last, after, members, split, stands, moves, noMember⟩ |
    ⟨isBlocked, before, last, after, content, split, stands⟩
  · exact Or.inl
      ⟨isMissing, segment :: before, last, after, members,
        by rw [split, List.cons_append], firstStep stands, moves, noMember⟩
  · exact Or.inr
      ⟨isBlocked, segment :: before, last, after, content,
        by rw [split, List.cons_append], firstStep stands⟩

/-- A walk that finds nothing breaks off or is blocked, and says which. -/
private theorem failsWith_of_follow_eq_error
    {tree : FileTree}
    {path : List String}
    {cause : ReadCause}
    (failed : tree.follow path = .error cause) :
    tree.FailsWith path cause := by
  induction path generalizing tree with
  | nil =>
      cases failed
  | cons segment rest inductionHypothesis =>
      cases tree with
      | file content =>
          cases failed
          exact Or.inr
            ⟨rfl, [], segment, rest, content, rfl, .here (file content)⟩
      | directory members =>
          simp only [follow] at failed
          cases stays : SourceName.staysPut segment with
          | true =>
              rw [if_pos stays] at failed
              exact (inductionHypothesis failed).cons (.stay stays)
          | false =>
              rw [if_neg (by simp [stays])] at failed
              cases isMember : members.lookup segment with
              | none =>
                  simp only [isMember] at failed
                  cases failed
                  exact Or.inl
                    ⟨rfl, [], segment, rest, members, rfl,
                      .here (directory members), stays, isMember⟩
              | some member =>
                  simp only [isMember] at failed
                  exact (inductionHypothesis failed).cons
                    (.enter stays isMember)

/-- A walk finds nothing just when it breaks off or is blocked, and says which. -/
theorem follow_eq_error_iff
    {tree : FileTree}
    {path : List String}
    {cause : ReadCause} :
    tree.follow path = .error cause ↔ tree.FailsWith path cause := by
  refine ⟨failsWith_of_follow_eq_error, ?_⟩
  rintro
    (⟨rfl, before, segment, after, members, rfl, stands, moves, noMember⟩ |
      ⟨rfl, before, segment, after, content, rfl, stands⟩)
  · rw [follow_append (follow_eq_ok_iff.mpr stands), follow,
      if_neg (by simp [moves])]
    simp only [noMember]
  · rw [follow_append (follow_eq_ok_iff.mpr stands), follow]

/-- A walk breaks off just when nothing stands at its end and no file blocks it. -/
theorem breaksOff_iff
    {tree : FileTree}
    {path : List String} :
    tree.BreaksOff path ↔
      (∀ place, ¬tree.StandsAt path place) ∧ ¬tree.IsBlocked path := by
  cases found : tree.follow path with
  | ok place =>
      have notMissing : ¬tree.BreaksOff path := by
        intro breaksOff
        have failed :=
          follow_eq_error_iff.mpr (Or.inl ⟨rfl, breaksOff⟩)
        cases found.symm.trans failed
      exact
        iff_of_false notMissing fun none =>
          none.1 place (follow_eq_ok_iff.mp found)
  | error cause =>
      have nothing : ∀ place, ¬tree.StandsAt path place := by
        intro place stands
        cases found.symm.trans (follow_eq_ok_iff.mpr stands)
      have only
          {other : ReadCause}
          (fails : tree.FailsWith path other) :
          other = cause := by
        cases found.symm.trans (follow_eq_error_iff.mpr fails)
        rfl
      rcases follow_eq_error_iff.mp found with
        ⟨isMissing, breaksOff⟩ | ⟨isBlockedCause, isBlocked⟩
      · refine iff_of_true breaksOff ⟨nothing, fun isBlocked => ?_⟩
        have other := only (Or.inr ⟨rfl, isBlocked⟩)
        exact absurd (other.trans isMissing) (by decide)
      · refine iff_of_false (fun breaksOff => ?_) fun none =>
          none.2 isBlocked
        have other := only (Or.inl ⟨rfl, breaksOff⟩)
        exact absurd (other.trans isBlockedCause) (by decide)

/-- What stands at a name may have no text, but it is there. -/
private theorem kind_of_text
    {place : FileTree}
    {cause : ReadCause}
    (failed : place.text = .error cause) :
    cause.kind ≠ .notFound := by
  cases place with
  | file content =>
      simp only [text] at failed
      split at failed
      · cases failed
      · cases failed
        decide
  | directory members =>
      cases failed
      decide

/-- Reading says that nothing was found just when the walk of a possible name breaks off. -/
theorem read_notFound_iff
    (tree : FileTree)
    (name : String) :
    (∃ cause, tree.read name = .error cause ∧ cause.kind = .notFound) ↔
      '\x00' ∉ name.toList ∧ tree.BreaksOff (SourceName.segments name) := by
  by_cases hasNull : '\x00' ∈ name.toList
  · refine iff_of_false ?_ fun possible => possible.1 hasNull
    rintro ⟨cause, failed, isNotFound⟩
    rw [read, if_pos (by simpa using hasNull)] at failed
    cases failed
    exact absurd isNotFound (by decide)
  · rw [read, if_neg (by simpa using hasNull)]
    constructor
    · rintro ⟨cause, failed, isNotFound⟩
      refine ⟨hasNull, ?_⟩
      cases found : tree.follow (SourceName.segments name) with
      | ok place =>
          rw [found] at failed
          exact absurd isNotFound (kind_of_text failed)
      | error other =>
          rw [found] at failed
          cases failed
          rcases follow_eq_error_iff.mp found with
            ⟨_, breaksOff⟩ | ⟨isBlocked, _⟩
          · exact breaksOff
          · rw [isBlocked] at isNotFound
            exact absurd isNotFound (by decide)
    · rintro ⟨_, breaksOff⟩
      have failed := follow_eq_error_iff.mpr (Or.inl ⟨rfl, breaksOff⟩)
      exact ⟨.missing, by rw [failed]; rfl, rfl⟩

end FileTree

namespace Loader

/-- A document that is not kept fails just when reading its source does, with the same cause. -/
private theorem result_document_eq_error_iff
    {loader : Loader}
    {name : String}
    (inside : SourceName.isInside name = true)
    (notKept : loader.kept? name = none)
    (read : String → Except ReadCause String)
    {fault : Fault} :
    (loader.document read name).2.result = .error fault ↔
      ∃ cause, read name = .error cause ∧ fault = .unreadable name cause := by
  cases found : read name with
  | error cause =>
      simp [document, inside, notKept, found, eq_comm]
  | ok text =>
      simp [document, inside, notKept, found]

end Loader

namespace ContentStore

/-- The document of a name that is not kept is not found just when its walk breaks off. -/
private theorem document_isNotFound_iff
    (store : ContentStore)
    {name : String}
    (inside : SourceName.isInside name = true)
    (notKept : store.loader.kept? name = none) :
    (∃ fault,
        (store.loader.document store.tree.read name).2.result =
            .error fault ∧
          fault.isNotFound = true) ↔
      '\x00' ∉ name.toList ∧
        store.tree.BreaksOff (SourceName.segments name) := by
  rw [← FileTree.read_notFound_iff]
  simp only [Loader.result_document_eq_error_iff inside notKept]
  constructor
  · rintro ⟨fault, ⟨cause, failed, rfl⟩, isNotFound⟩
    exact ⟨cause, failed, of_decide_eq_true isNotFound⟩
  · rintro ⟨cause, failed, isNotFound⟩
    exact ⟨_, ⟨cause, failed, rfl⟩, decide_eq_true isNotFound⟩

/-- A request for a document has the status 404 just when the document is not found. -/
private theorem status_respond_eq_404_iff
    (store : ContentStore)
    {name : String}
    {request : Request}
    {route : Route}
    (asks : request.AsksFor route (.document name)) :
    (store.respond request).2.status = 404 ↔
      ∃ fault,
        (store.loader.document store.tree.read name).2.result =
            .error fault ∧
          fault.isNotFound = true := by
  have reports := (store.reports_of_asksFor asks).1
  have result :
      (store.answer (.document name)).2.result =
        (store.loader.document store.tree.read name).2.result.map
          Content.document :=
    rfl
  rw [result] at reports
  cases found : (store.loader.document store.tree.read name).2.result with
  | ok document =>
      rw [found] at reports
      have served := reports.1
      simp [served]
  | error fault =>
      rw [found] at reports
      have status := reports.1
      simp [status]

/--
A document that is not kept is not found, and answered with the status 404, just
when nothing stands at its name, no file blocks the way to it, and the name is one
that a file can have. So what is not found is not there. What is not there behind a
file is another fault, and so is a name with a null character. A name that is too long
for the system is one that a file can have here, as trees set no such limit.
-/
theorem document_notFound_exactly
    (store : ContentStore)
    {name : String}
    (inside : SourceName.isInside name = true)
    (notKept : store.loader.kept? name = none) :
    let path := SourceName.segments name
    let isLacking :=
      (∀ place, ¬store.tree.StandsAt path place) ∧
        ¬store.tree.IsBlocked path ∧ '\x00' ∉ name.toList
    ((∃ fault,
        (store.loader.document store.tree.read name).2.result =
            .error fault ∧
          fault.isNotFound = true) ↔
      isLacking) ∧
      ∀ request route,
        Request.AsksFor request route (.document name) →
          ((store.respond request).2.status = 404 ↔ isLacking) := by
  intro path isLacking
  have isNotFound := store.document_isNotFound_iff inside notKept
  rw [FileTree.breaksOff_iff, and_comm, and_assoc] at isNotFound
  exact
    ⟨isNotFound, fun _ _ asks =>
      (store.status_respond_eq_404_iff asks).trans isNotFound⟩

/-- A name in a directory without members is not found, dots or not. -/
theorem document_notFound_exactly_dotted :
    let store : ContentStore :=
      ⟨.directory [("d", .directory [])], .ofNames {}⟩
    SourceName.isInside "d/./b" = true ∧
      store.loader.kept? "d/./b" = none ∧
      (∀ place,
        ¬store.tree.StandsAt (SourceName.segments "d/./b") place) ∧
      (store.respond ⟨.get, "/v1/documents/d%2F.%2Fb"⟩).2.status = 404 := by
  intro store
  have inside : SourceName.isInside "d/./b" = true := by decide
  have asks :
      Request.AsksFor ⟨.get, "/v1/documents/d%2F.%2Fb"⟩
        (.document "d%2F.%2Fb") (.document "d/./b") :=
    ⟨Or.inl rfl, ⟨by decide, by decide⟩, by decide, .document (by decide)⟩
  obtain ⟨isNotFound, isAnswered⟩ :=
    store.document_notFound_exactly inside rfl
  have isLacking := isNotFound.mp ⟨.unreadable "d/./b" .missing, rfl, rfl⟩
  exact ⟨inside, rfl, isLacking.1, (isAnswered _ _ asks).mpr isLacking⟩

/--
Nothing stands behind a file, or at a name with a null character, and yet a
document with such a name is not said to be not found.
-/
theorem nothing_there_but_not_notFound :
    let store : ContentStore :=
      ⟨.directory [("a", .file "[A] -> [B]".toUTF8)], .ofNames {}⟩
    let result (name : String) :=
      (store.loader.document store.tree.read name).2.result
    (SourceName.isInside "a/b" = true ∧
        store.loader.kept? "a/b" = none ∧
        (∀ place,
          ¬store.tree.StandsAt (SourceName.segments "a/b") place) ∧
        result "a/b" = .error (.unreadable "a/b" .notDirectory) ∧
        (Fault.unreadable "a/b" .notDirectory).isNotFound = false ∧
        (Fault.unreadable "a/b" .notDirectory).status = 500) ∧
      SourceName.isInside "a\x00" = true ∧
        store.loader.kept? "a\x00" = none ∧
        (∀ place,
          ¬store.tree.StandsAt (SourceName.segments "a\x00") place) ∧
        result "a\x00" = .error (.unreadable "a\x00" .nullInName) ∧
        (Fault.unreadable "a\x00" .nullInName).isNotFound = false ∧
        (Fault.unreadable "a\x00" .nullInName).status = 500 := by
  intro store result
  have nothing
      {name : String}
      {cause : ReadCause}
      (failed :
        store.tree.follow (SourceName.segments name) = .error cause) :
      ∀ place, ¬store.tree.StandsAt (SourceName.segments name) place := by
    intro place stands
    cases failed.symm.trans (FileTree.follow_eq_ok_iff.mpr stands)
  have behindFile :
      store.tree.follow (SourceName.segments "a/b") = .error .notDirectory :=
    rfl
  have withNull :
      store.tree.follow (SourceName.segments "a\x00") = .error .missing :=
    rfl
  exact
    ⟨⟨by decide, rfl, nothing behindFile, rfl, rfl, rfl⟩,
      by decide, rfl, nothing withNull, rfl, rfl, rfl⟩

end ContentStore

end AnchorScript
