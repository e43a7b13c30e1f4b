import AnchorScript.Proofs.Text.Pieces
import AnchorScript.Web.Exchange
import AnchorScript.Web.Route

namespace AnchorScript

/-!
# Paths of the routes

Every route has one path, and a target is answered by a route exactly when its
path is that of the route. From this follows which call a request asks for: its
method reads, and its path is that of a route whose name decodes.
-/

namespace Route

/-- The path at which a route is served. -/
def path : Route → String
  | document written => "/v1/documents/" ++ written
  | page written => "/v1/pages/" ++ written
  | navigation => "/v1/nav"
  | tools => "/v1/tools"
  | docsNavigation => "/v1/docs-nav"
  | comparison => "/v1/aso"

/-- A name in a path is one segment that is not empty. -/
def IsProper : Route → Prop
  | document written => written ≠ "" ∧ '/' ∉ written.toList
  | page written => written ≠ "" ∧ '/' ∉ written.toList
  | _ => True

/-- The call that a route stands for; a name in it is decoded. -/
inductive StandsFor : Route → Call → Prop where
  | document
      {written name : String}
      (decoded : Text.percentDecoded? written = some name) :
      StandsFor (.document written) (.document name)
  | page
      {written name : String}
      (decoded : Text.percentDecoded? written = some name) :
      StandsFor (.page written) (.page name)
  | navigation : StandsFor .navigation .navigation
  | tools : StandsFor .tools .tools
  | docsNavigation : StandsFor .docsNavigation .docsNavigation
  | comparison : StandsFor .comparison .comparison

/-- A route stands for one call, unless the name in it does not decode. -/
theorem standsFor_iff
    {route : Route}
    {call : Call} :
    route.StandsFor call ↔ route.call? = some call := by
  constructor
  · intro standsFor
    cases standsFor with
    | document decoded => simp [call?, decoded]
    | page decoded => simp [call?, decoded]
    | navigation => rfl
    | tools => rfl
    | docsNavigation => rfl
    | comparison => rfl
  · intro found
    cases route with
    | document written =>
        obtain ⟨name, decoded, rfl⟩ := Option.map_eq_some_iff.mp found
        exact .document decoded
    | page written =>
        obtain ⟨name, decoded, rfl⟩ := Option.map_eq_some_iff.mp found
        exact .page decoded
    | navigation => cases found; exact .navigation
    | tools => cases found; exact .tools
    | docsNavigation => cases found; exact .docsNavigation
    | comparison => cases found; exact .comparison

/-- The segments of the path, with the empty one in front of the first slash. -/
def segments : Route → List String
  | document written => ["", "v1", "documents", written]
  | page written => ["", "v1", "pages", written]
  | navigation => ["", "v1", "nav"]
  | tools => ["", "v1", "tools"]
  | docsNavigation => ["", "v1", "docs-nav"]
  | comparison => ["", "v1", "aso"]

private theorem intercalate_segments (route : Route) :
    ['/'].intercalate (route.segments.map String.toList) =
      route.path.toList := by
  cases route <;>
    simp [segments, path, List.intercalate_cons_cons]

private theorem isProper_iff (route : Route) :
    route.IsProper ↔
      "" ∉ route.segments.drop 1 ∧
        ∀ part ∈ route.segments.map String.toList, '/' ∉ part := by
  cases route with
  | document written =>
      simp [IsProper, segments, Eq.comm (a := "")]
  | page written =>
      simp [IsProper, segments, Eq.comm (a := "")]
  | navigation => simp [IsProper, segments]
  | tools => simp [IsProper, segments]
  | docsNavigation => simp [IsProper, segments]
  | comparison => simp [IsProper, segments]

private theorem ofTarget?_eq_some_iff_segments
    {target : String}
    {route : Route} :
    ofTarget? target = some route ↔
      "" ∉ route.segments.drop 1 ∧
        Text.pieces '/' (pathOf target) =
          route.segments.map String.toList := by
  have pieces :
      Text.pieces '/' (pathOf target) = route.segments.map String.toList ↔
        (Text.pieces '/' (pathOf target)).map String.ofList =
          route.segments := by
    constructor
    · intro same
      simp [same, Function.comp_def]
    · intro same
      simp [← same, Function.comp_def]
  rw [pieces]
  constructor
  · intro found
    unfold ofTarget? at found
    split at found
    case h_7 =>
      cases found
    case h_1 written shape | h_2 written shape =>
      by_cases isEmpty : written = ""
      · simp [isEmpty] at found
      · simp only [isEmpty, if_false, Option.some.injEq] at found
        subst found
        exact ⟨by simp [segments, Eq.comm (a := ""), isEmpty], shape⟩
    all_goals
      cases found
      exact ⟨by decide, by assumption⟩
  · rintro ⟨named, shape⟩
    cases route <;> simp_all [ofTarget?, segments]

/-- A target is answered by a route exactly when its path is that of the route. -/
theorem ofTarget?_eq_some_iff
    {target : String}
    {route : Route} :
    ofTarget? target = some route ↔
      route.IsProper ∧ pathOf target = route.path.toList := by
  have nonempty : route.segments.map String.toList ≠ [] := by
    cases route <;> exact List.cons_ne_nil _ _
  rw [ofTarget?_eq_some_iff_segments, Text.pieces_eq_iff nonempty,
    intercalate_segments, isProper_iff]
  constructor
  · rintro ⟨named, path, absent⟩
    exact ⟨⟨named, absent⟩, path⟩
  · rintro ⟨⟨named, absent⟩, path⟩
    exact ⟨named, path, absent⟩

end Route

namespace Request

/-- The request reads the path of a route, and the name in the path decodes. -/
structure AsksFor
    (request : Request)
    (route : Route)
    (call : Call) : Prop where
  reads : request.method = .get ∨ request.method = .head
  isProper : route.IsProper
  path : Route.pathOf request.target = route.path.toList
  decoded : route.StandsFor call

/-- The call that a request asks for. -/
def call? (request : Request) : Option Call :=
  match request.method with
  | .get => (Route.ofTarget? request.target).bind Route.call?
  | .head => (Route.ofTarget? request.target).bind Route.call?
  | .options => none
  | .other _ => none

/-- A request for a call asks for it by a route. -/
theorem call?_eq_some_iff
    {request : Request}
    {call : Call} :
    request.call? = some call ↔ ∃ route, request.AsksFor route call := by
  have byRoute :
      (Route.ofTarget? request.target).bind Route.call? = some call ↔
        ∃ route : Route,
          route.IsProper ∧
            Route.pathOf request.target = route.path.toList ∧
              route.StandsFor call := by
    rw [Option.bind_eq_some_iff]
    simp only [Route.ofTarget?_eq_some_iff, Route.standsFor_iff, and_assoc]
  constructor
  · intro found
    cases method : request.method with
    | get =>
        rw [call?, method] at found
        obtain ⟨route, isProper, path, decoded⟩ := byRoute.mp found
        exact ⟨route, Or.inl method, isProper, path, decoded⟩
    | head =>
        rw [call?, method] at found
        obtain ⟨route, isProper, path, decoded⟩ := byRoute.mp found
        exact ⟨route, Or.inr method, isProper, path, decoded⟩
    | options =>
        rw [call?, method] at found
        cases found
    | other name =>
        rw [call?, method] at found
        cases found
  · rintro ⟨route, isGet | isHead, isProper, path, decoded⟩
    · rw [call?, isGet]
      exact byRoute.mpr ⟨route, isProper, path, decoded⟩
    · rw [call?, isHead]
      exact byRoute.mpr ⟨route, isProper, path, decoded⟩

end Request

end AnchorScript
