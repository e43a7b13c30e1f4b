import AnchorScript.Proofs.Web.Refinement

namespace AnchorScript

/-!
# Names stay inside

A source name is a path, and a path can be read in two ways. Its components are
what is left when repeated slashes and dots are dropped; its segments are what is
followed when a file is opened. A name that is inside has neither a root nor a
parent among its components, and following its segments never leaves the content
directory. A name that is not inside is refused by every call and by every route
before anything is read or kept.
-/

namespace SourceName

/-- One step of a path as a path says it, apart from how often slashes are written. -/
inductive Component where
  | root
  | current
  | parent
  | named (name : String)
deriving Repr, DecidableEq

/-- The component that a segment is; a segment that stays put is none. -/
def component? (segment : String) : Option Component :=
  if staysPut segment then none
  else if segment = ".." then some .parent
  else some (.named segment)

/-- The component that only the front of a path can be: the root, or the current directory. -/
def frontComponents (name : String) : List Component :=
  if name.toList.head? = some '/' then [.root]
  else if (segments name).head? = some "." then [.current]
  else []

/-- The components of a path. -/
def components (name : String) : List Component :=
  frontComponents name ++ (segments name).filterMap component?

/-- The component leads neither to the root nor to a parent. -/
def Component.staysBelow : Component → Bool
  | root => false
  | current => true
  | parent => false
  | named _ => true

/-- The directory in which a path starts: the root of all, or the given one. -/
def startOf (directory : List String) (name : String) : List String :=
  if name.toList.head? = some '/' then [] else directory

/-- Follow one segment from a place, which is named from the root of all. -/
def enter (place : List String) (segment : String) : List String :=
  if staysPut segment then place
  else if segment = ".." then place.dropLast
  else place ++ [segment]

/-- The place that is reached after the first segments of a path. -/
def placeAfter
    (directory : List String)
    (name : String)
    (count : Nat) :
    List String :=
  ((segments name).take count).foldl enter (startOf directory name)

/-- A name is inside when it says something, has no root in front and never climbs. -/
theorem isInside_iff (name : String) :
    isInside name = true ↔
      name ≠ "" ∧ name.toList.head? ≠ some '/' ∧ ".." ∉ segments name := by
  simp [isInside, and_assoc]

private theorem staysBelow_of_mem_frontComponents
    {name : String}
    (relative : name.toList.head? ≠ some '/')
    {component : Component}
    (member : component ∈ frontComponents name) :
    component.staysBelow = true := by
  simp only [frontComponents, if_neg relative] at member
  split at member
  · rw [List.mem_singleton.mp member]
    rfl
  · cases member

private theorem staysBelow_of_component?
    {segment : String}
    (notParent : segment ≠ "..")
    {component : Component}
    (found : component? segment = some component) :
    component.staysBelow = true := by
  simp only [component?, if_neg notParent] at found
  split at found
  · cases found
  · cases found
    rfl

/-- The components of a name show whether it is inside. -/
theorem isInside_iff_components (name : String) :
    isInside name = true ↔
      name ≠ "" ∧
        ∀ component ∈ components name, component.staysBelow = true := by
  rw [isInside_iff]
  constructor
  · rintro ⟨nonempty, relative, noParent⟩
    refine ⟨nonempty, fun component member => ?_⟩
    rcases List.mem_append.mp member with atFront | inSegments
    · exact staysBelow_of_mem_frontComponents relative atFront
    · obtain ⟨segment, isSegment, found⟩ := List.mem_filterMap.mp inSegments
      exact staysBelow_of_component?
        (ne_of_mem_of_not_mem isSegment noParent) found
  · rintro ⟨nonempty, below⟩
    refine ⟨nonempty, fun isRoot => ?_, fun climbs => ?_⟩
    · have member : Component.root ∈ components name := by
        simp [components, frontComponents, isRoot]
      exact absurd (below _ member) (by decide)
    · have member : Component.parent ∈ components name :=
        List.mem_append_right _
          (List.mem_filterMap.mpr ⟨"..", climbs, by decide⟩)
      exact absurd (below _ member) (by decide)

example :
    components ".//a/./b/../" =
      [.current, .named "a", .named "b", .parent] := by
  decide

/-- Segments that do not climb lead down from a place, one directory for each that moves. -/
theorem foldl_enter
    (place : List String)
    {path : List String}
    (noParent : ".." ∉ path) :
    path.foldl enter place =
      place ++ path.filter fun segment => !staysPut segment := by
  induction path generalizing place with
  | nil =>
      simp
  | cons segment rest inductionHypothesis =>
      simp only [List.mem_cons, not_or] at noParent
      rw [List.foldl_cons, inductionHypothesis _ noParent.2, enter,
        if_neg (Ne.symm noParent.1)]
      cases moves : staysPut segment <;> simp [moves]

/-- A name that is inside is below the directory wherever it is stopped. -/
theorem placeAfter_of_isInside
    {name : String}
    (inside : isInside name = true)
    (directory : List String)
    (count : Nat) :
    placeAfter directory name count =
      directory ++
        ((segments name).take count).filter fun segment =>
          !staysPut segment := by
  obtain ⟨_, relative, noParent⟩ := (isInside_iff name).mp inside
  rw [placeAfter, startOf, if_neg relative]
  exact foldl_enter directory fun climbs =>
    noParent (List.mem_of_mem_take climbs)

end SourceName

namespace FileTree

/-- Following one path and then another is following both. -/
theorem follow_append
    {tree place : FileTree}
    {path : List String}
    (found : tree.follow path = .ok place)
    (rest : List String) :
    tree.follow (path ++ rest) = place.follow rest := by
  induction path generalizing tree with
  | nil =>
      cases found
      rfl
  | cons segment path inductionHypothesis =>
      cases tree with
      | file content =>
          cases found
      | directory members =>
          simp only [List.cons_append, follow] at found ⊢
          split
          · rename_i stays
            rw [if_pos stays] at found
            exact inductionHypothesis found
          · rename_i moves
            rw [if_neg moves] at found
            cases isMember : members.lookup segment with
            | none =>
                simp only [isMember] at found
                cases found
            | some member =>
                simp only [isMember] at found
                exact inductionHypothesis found

/-- What is found is found without the segments that stay put. -/
theorem follow_filter
    {tree place : FileTree}
    {path : List String}
    (found : tree.follow path = .ok place) :
    tree.follow (path.filter fun segment => !SourceName.staysPut segment) =
      .ok place := by
  induction path generalizing tree with
  | nil =>
      exact found
  | cons segment path inductionHypothesis =>
      cases tree with
      | file content =>
          cases found
      | directory members =>
          simp only [follow] at found
          cases stays : SourceName.staysPut segment with
          | true =>
              rw [if_pos stays] at found
              simpa [stays] using inductionHypothesis found
          | false =>
              rw [if_neg (by simp [stays])] at found
              cases isMember : members.lookup segment with
              | none =>
                  simp only [isMember] at found
                  cases found
              | some member =>
                  simp only [isMember] at found
                  simp [stays, follow, isMember, inductionHypothesis found]

end FileTree

private theorem Response.ofResult_invalidName
    (subject name : String) :
    ofResult subject (.error (.invalidName name)) =
      { status := 400
        contentType := some "application/json"
        body := .fault (.invalidName name)
        event :=
          some (.failed subject (Fault.invalidName name).message "400") } := by
  have code : toString 400 = "400" := by
    decide
  rw [ofResult, Fault.status, code]

namespace Loader

/-- A name that is not inside is refused, whatever could be read and whatever is kept. -/
theorem answer_of_not_isInside
    (loader : Loader)
    (read : String → Except ReadCause String)
    {call : Call}
    (outside :
      SourceName.isInside (call.sourceName loader.names) = false) :
    loader.answer read call =
      (loader,
        ⟨.error (.invalidName (call.sourceName loader.names)), []⟩) := by
  simp [answer, document, outside, Outcome.map, Except.map]

/-- So a request for it is answered with status 400, and nothing is kept. -/
theorem respond_of_not_isInside
    (loader : Loader)
    (read : String → Except ReadCause String)
    {request : Request}
    {route : Route}
    {call : Call}
    (asks : request.AsksFor route call)
    (outside :
      SourceName.isInside (call.sourceName loader.names) = false) :
    let fault := Fault.invalidName (call.sourceName loader.names)
    let response := (loader.respond read request).2
    (loader.respond read request).1 = loader ∧
      response.status = 400 ∧
      response.event = some (.failed route.subject fault.message "400") ∧
      (request.method = .get → response.body = .fault fault) := by
  obtain ⟨sameLoader, ⟨_, shape⟩ | ⟨isHead, shape⟩⟩ :=
    loader.respond_of_asksFor read asks
  · rw [answer_of_not_isInside loader read outside] at sameLoader shape
    simp [shape, Response.ofResult_invalidName, sameLoader]
  · rw [answer_of_not_isInside loader read outside] at sameLoader shape
    simp [shape, Response.ofResult_invalidName, sameLoader,
      Response.withoutBody, isHead]

end Loader

namespace SourceName

/--
No name reaches outside the content directory. Its components and its segments
agree on whether it is inside. A name that is inside leads to a place below the
directory at every stop, and what is read for it stands at the last one. For a
name that is not, every call and every request gives the same refusal whatever
there is to read, and the loader stays as it is.
-/
theorem confined_to_directory (name : String) :
    (isInside name = true ↔
        name ≠ "" ∧
          ∀ component ∈ components name, component.staysBelow = true) ∧
      (isInside name = true ↔
        name ≠ "" ∧ name.toList.head? ≠ some '/' ∧ ".." ∉ segments name) ∧
      (isInside name = true →
        (∀ directory count,
          directory <+: placeAfter directory name count) ∧
        ∀ (root content found : FileTree) (directory : List String),
          root.follow directory = .ok content →
            content.follow (segments name) = .ok found →
              root.follow
                (placeAfter directory name (segments name).length) =
                  .ok found) ∧
      (isInside name = false →
        ∀ (loader : Loader) (read : String → Except ReadCause String)
          (call : Call),
          call.IsFor loader.names name →
            loader.answer read call =
                (loader, ⟨.error (.invalidName name), []⟩) ∧
              ∀ request route,
                Request.AsksFor request route call →
                  let response := (loader.respond read request).2
                  (loader.respond read request).1 = loader ∧
                    response.status = 400 ∧
                    response.event =
                      some
                        (.failed route.subject
                          (Fault.invalidName name).message "400") ∧
                    (request.method = .get →
                      response.body = .fault (.invalidName name))) := by
  refine ⟨isInside_iff_components name, isInside_iff name, ?below, ?refused⟩
  case below =>
    intro inside
    refine ⟨fun directory count => ?_, ?_⟩
    · rw [placeAfter_of_isInside inside]
      exact List.prefix_append _ _
    · intro root content found directory isContent isFound
      rw [placeAfter_of_isInside inside, List.take_length,
        FileTree.follow_append isContent]
      exact FileTree.follow_filter isFound
  case refused =>
    intro outside loader read call isFor
    obtain rfl := Call.isFor_iff.mp isFor
    exact
      ⟨loader.answer_of_not_isInside read outside,
        fun _ _ asks => loader.respond_of_not_isInside read asks outside⟩

/-- A coded name that climbs back is refused, and a dotted one stays below. -/
theorem confined_to_directory_coded :
    ["site"] <+: placeAfter ["site"] "./a//b" 2 ∧
      ((Loader.ofNames {}).respond (fun _ => .ok "[A] -> [B]")
        ⟨.get, "/v1/documents/a%2F..%2F..%2Fb"⟩).2.status = 400 := by
  obtain ⟨_, _, below, _⟩ := confined_to_directory "./a//b"
  obtain ⟨_, _, _, refused⟩ := confined_to_directory "a/../../b"
  refine ⟨(below (by decide)).1 ["site"] 2, ?_⟩
  have asks :
      Request.AsksFor ⟨.get, "/v1/documents/a%2F..%2F..%2Fb"⟩
        (.document "a%2F..%2F..%2Fb") (.document "a/../../b") :=
    ⟨Or.inl rfl, ⟨by decide, by decide⟩, by decide, .document (by decide)⟩
  exact
    ((refused (by decide) (.ofNames {}) (fun _ => .ok "[A] -> [B]")
      (.document "a/../../b") (.document _)).2 _ _ asks).2.1

end SourceName

end AnchorScript
