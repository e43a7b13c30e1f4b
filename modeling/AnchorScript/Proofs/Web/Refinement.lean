import AnchorScript.Proofs.Content.Answers
import AnchorScript.Proofs.Web.Paths
import AnchorScript.Web.Service

namespace AnchorScript

/-!
# The service refines the loader

A history of the service has requests where a history of the loader has calls.
Leaving out the requests that ask for nothing, and replacing the others by their
calls, gives a history of the loader that leaves the same store behind. So every
request is answered from the store that the direct calls would have made, and
the response says what the direct call gives.
-/

/-- What can happen to a content store that is served. -/
inductive ServiceAction where
  | write (name : String) (content : ByteArray)
  | makeDirectory (name : String)
  | remove (name : String)
  | request (received : Request)

/-- The action of a loader that does the same, if it is one. -/
def ServiceAction.action? : ServiceAction → Option Action
  | write name content => some (.write name content)
  | makeDirectory name => some (.makeDirectory name)
  | remove name => some (.remove name)
  | request received => received.call?.map Action.call

namespace ContentStore

/-- One action of a service; only a request has a response. -/
def serveStep
    (store : ContentStore) :
    ServiceAction → ContentStore × Option Response
  | .write name content => ((store.step (.write name content)).1, none)
  | .makeDirectory name => ((store.step (.makeDirectory name)).1, none)
  | .remove name => ((store.step (.remove name)).1, none)
  | .request received =>
      let (next, response) := store.respond received
      (next, some response)

/-- Serve a history, and collect the responses. -/
def serve
    (store : ContentStore) :
    List ServiceAction → ContentStore × List Response
  | [] => (store, [])
  | action :: rest =>
      let (next, response) := store.serveStep action
      let (final, responses) := next.serve rest
      (final, response.toList ++ responses)

end ContentStore

/-- The response has the status and the event that go with the result of a call. -/
def Response.Reports
    (response : Response)
    (subject : String) :
    Except Fault Content → Prop
  | .ok _ =>
      response.status = 200 ∧ response.event = some (.served subject)
  | .error fault =>
      (response.status = 404 ↔ fault.isNotFound = true) ∧
        (response.status = 400 ↔ ∃ name, fault = .invalidName name) ∧
        (response.status = 404 ∨ response.status = 400 ∨
          response.status = 500) ∧
        response.event =
          some (.failed subject fault.message (toString response.status))

/-- Content is written as the record of its kind, and sections as a list of records. -/
inductive Content.IsWrittenAs : Content → Json → Prop where
  | document (found : Document) :
      IsWrittenAs (.document found) found.toJson
  | page (found : Page) :
      IsWrittenAs (.page found) found.toJson
  | navigation (found : Navigation) :
      IsWrittenAs (.navigation found) found.toJson
  | tools (found : ToolsPage) :
      IsWrittenAs (.tools found) found.toJson
  | docsNavigation (found : List DocsSection) :
      IsWrittenAs (.docsNavigation found)
        (.list (found.map DocsSection.toJson))
  | comparison (found : ComparisonPage) :
      IsWrittenAs (.comparison found) found.toJson

/-- Content is written as its record. -/
theorem Content.isWrittenAs_toJson (content : Content) :
    content.IsWrittenAs content.toJson := by
  cases content with
  | document found => exact .document found
  | page found => exact .page found
  | navigation found => exact .navigation found
  | tools found => exact .tools found
  | docsNavigation found => exact .docsNavigation found
  | comparison found => exact .comparison found

/-- The body is the envelope of the result of a call, however long that took. -/
def Response.Wraps
    (response : Response)
    (result : Except Fault Content) :
    Prop :=
  ∀ elapsed, ∃ fields,
    response.body.envelope? elapsed = some (.record fields) ∧
      match result with
      | .ok found =>
          Json.field? fields "status" = some (.text "ok") ∧
            (∃ data,
              Json.field? fields "data" = some data ∧
                found.IsWrittenAs data) ∧
            Json.field? fields "error" = none
      | .error fault =>
          Json.field? fields "status" = some (.text "error") ∧
            Json.field? fields "data" = none ∧
            Json.field? fields "error" = some (.text fault.message)

/--
The status of a fault tells a missing source from a refused name and from all
else.
-/
theorem Fault.status_cases (fault : Fault) :
    (fault.status = 404 ↔ fault.isNotFound = true) ∧
      (fault.status = 400 ↔ ∃ name, fault = .invalidName name) ∧
      (fault.status = 404 ∨ fault.status = 400 ∨ fault.status = 500) := by
  cases fault with
  | unreadable name cause =>
      by_cases isMissing : cause.kind = .notFound <;>
        simp [status, isNotFound, isMissing]
  | settings reason => simp [status, isNotFound]
  | invalidName name => simp [status, isNotFound]
  | lock reason => simp [status, isNotFound]
  | serialization reason => simp [status, isNotFound]
  | server reason => simp [status, isNotFound]

namespace Response

/-- The response to a call reports its result. -/
theorem reports_ofResult
    (subject : String)
    (result : Except Fault Content) :
    (ofResult subject result).Reports subject result := by
  cases result with
  | ok found =>
      exact ⟨rfl, rfl⟩
  | error fault =>
      obtain ⟨missing, refused, all⟩ := fault.status_cases
      exact ⟨missing, refused, all, rfl⟩

/-- A response without its body reports the same. -/
theorem Reports.withoutBody
    {response : Response}
    {subject : String}
    {result : Except Fault Content}
    (reports : response.Reports subject result) :
    response.withoutBody.Reports subject result := by
  cases result with
  | ok found => exact reports
  | error fault => exact reports

/-- The body of the response to a call wraps its result. -/
theorem wraps_ofResult
    (subject : String)
    (result : Except Fault Content) :
    (ofResult subject result).Wraps result := by
  intro elapsed
  cases result with
  | ok found =>
      exact ⟨_, rfl, rfl, ⟨_, rfl, found.isWrittenAs_toJson⟩, rfl⟩
  | error fault =>
      exact ⟨_, rfl, rfl, rfl, rfl⟩

end Response

/-- A request that asks for a call makes it, and answers with its result. -/
theorem Loader.respond_of_asksFor
    (loader : Loader)
    (read : String → Except ReadCause String)
    {request : Request}
    {route : Route}
    {call : Call}
    (asks : request.AsksFor route call) :
    (loader.respond read request).1 = (loader.answer read call).1 ∧
      ((request.method = .get ∧
          (loader.respond read request).2 =
            .ofResult route.subject (loader.answer read call).2.result) ∨
        (request.method = .head ∧
          (loader.respond read request).2 =
            (Response.ofResult route.subject
              (loader.answer read call).2.result).withoutBody)) := by
  obtain ⟨isGet | isHead, isProper, path, decoded⟩ := asks
  · have found := Route.ofTarget?_eq_some_iff.mpr ⟨isProper, path⟩
    simp [respond, isGet, found, readRoute, Route.standsFor_iff.mp decoded]
  · have found := Route.ofTarget?_eq_some_iff.mpr ⟨isProper, path⟩
    simp [respond, isHead, found, readRoute, Route.standsFor_iff.mp decoded]

namespace ContentStore

/-- The same request to a store makes the call there. -/
theorem respond_of_asksFor
    (store : ContentStore)
    {request : Request}
    {route : Route}
    {call : Call}
    (asks : request.AsksFor route call) :
    (store.respond request).1 = (store.answer call).1 ∧
      ((request.method = .get ∧
          (store.respond request).2 =
            .ofResult route.subject (store.answer call).2.result) ∨
        (request.method = .head ∧
          (store.respond request).2 =
            (Response.ofResult route.subject
              (store.answer call).2.result).withoutBody)) := by
  obtain ⟨sameLoader, responds⟩ :=
    store.loader.respond_of_asksFor store.tree.read asks
  exact ⟨by simp [respond, answer, sameLoader], responds⟩

/--
The response to a request for a call reports the result, and wraps it unless
only the head is asked for.
-/
theorem reports_of_asksFor
    (store : ContentStore)
    {request : Request}
    {route : Route}
    {call : Call}
    (asks : request.AsksFor route call) :
    (store.respond request).2.Reports route.subject
        (store.answer call).2.result ∧
      (request.method = .get →
        (store.respond request).2.Wraps (store.answer call).2.result) := by
  have reports :=
    Response.reports_ofResult route.subject (store.answer call).2.result
  obtain ⟨_, ⟨isGet, shape⟩ | ⟨isHead, shape⟩⟩ :=
    store.respond_of_asksFor asks
  · rw [shape]
    exact ⟨reports, fun _ => Response.wraps_ofResult _ _⟩
  · rw [shape]
    refine ⟨reports.withoutBody, fun isGet => ?_⟩
    rw [isHead] at isGet
    cases isGet

private theorem respond_eq_of_call?_eq_none
    (store : ContentStore)
    {request : Request}
    (asksNothing : request.call? = none) :
    (store.respond request).1 = store ∧
      ((store.respond request).2 =
          .options (Route.ofTarget? request.target).isSome ∨
        (store.respond request).2 = .notFound ∨
        (store.respond request).2 = .methodNotAllowed ∨
        (store.respond request).2 = .undecodable ∨
        (store.respond request).2 = Response.undecodable.withoutBody) := by
  obtain ⟨method, target⟩ := request
  cases method with
  | options =>
      cases found : Route.ofTarget? target <;>
        simp [respond, Loader.respond, found]
  | other name =>
      cases found : Route.ofTarget? target <;>
        simp [respond, Loader.respond, found]
  | get =>
      cases found : Route.ofTarget? target with
      | none =>
          simp [respond, Loader.respond, found]
      | some route =>
          have undecoded : route.call? = none := by
            simpa [Request.call?, found] using asksNothing
          simp [respond, Loader.respond, found, Loader.readRoute, undecoded]
  | head =>
      cases found : Route.ofTarget? target with
      | none =>
          simp [respond, Loader.respond, found]
      | some route =>
          have undecoded : route.call? = none := by
            simpa [Request.call?, found] using asksNothing
          simp [respond, Loader.respond, found, Loader.readRoute, undecoded]

/--
A request that asks for nothing changes nothing, reports nothing and wraps
nothing.
-/
theorem respond_of_call?_eq_none
    (store : ContentStore)
    {request : Request}
    (asksNothing : request.call? = none) :
    (store.respond request).1 = store ∧
      (store.respond request).2.event = none ∧
      ∀ elapsed,
        (store.respond request).2.body.envelope? elapsed = none := by
  obtain ⟨unchanged, responses⟩ :=
    store.respond_eq_of_call?_eq_none asksNothing
  refine ⟨unchanged, ?_⟩
  rcases responses with shape | shape | shape | shape | shape <;>
    exact shape ▸ ⟨rfl, fun _ => rfl⟩

/-- Asking for the head gives the response without its body, and does the same. -/
theorem respond_head
    (store : ContentStore)
    (target : String) :
    store.respond ⟨.head, target⟩ =
      ((store.respond ⟨.get, target⟩).1,
        { (store.respond ⟨.get, target⟩).2 with body := .nothing }) := by
  cases found : Route.ofTarget? target with
  | none =>
      simp [respond, Loader.respond, found, Response.notFound]
  | some route =>
      simp [respond, Loader.respond, found, Response.withoutBody]

/-- One action of the service leaves the store that its action of the loader leaves. -/
theorem serveStep_eq_run
    (store : ContentStore)
    (action : ServiceAction) :
    (store.serveStep action).1 = (store.run action.action?.toList).1 := by
  cases action with
  | write name content => rfl
  | makeDirectory name => rfl
  | remove name => rfl
  | request received =>
      cases asked : received.call? with
      | none =>
          simp only [serveStep, ServiceAction.action?, asked, Option.map_none,
            Option.toList_none, run]
          exact (store.respond_of_call?_eq_none asked).1
      | some call =>
          obtain ⟨route, asks⟩ := Request.call?_eq_some_iff.mp asked
          simp only [serveStep, ServiceAction.action?, asked, Option.map_some,
            Option.toList_some, run, step]
          exact (store.respond_of_asksFor asks).1

/-- A history of the service leaves the store that its history of the loader leaves. -/
theorem serve_eq_run
    (store : ContentStore)
    (past : List ServiceAction) :
    (store.serve past).1 =
      (store.run (past.filterMap ServiceAction.action?)).1 := by
  induction past generalizing store with
  | nil =>
      rfl
  | cons action rest inductionHypothesis =>
      have actions :
          (action :: rest).filterMap ServiceAction.action? =
            action.action?.toList ++
              rest.filterMap ServiceAction.action? := by
        cases replaced : action.action? <;> simp [replaced]
      calc
        (store.serve (action :: rest)).1
            = ((store.serveStep action).1.serve rest).1 := rfl
        _ = ((store.serveStep action).1.run
              (rest.filterMap ServiceAction.action?)).1 :=
            inductionHypothesis _
        _ = (store.run
              ((action :: rest).filterMap ServiceAction.action?)).1 := by
            rw [serveStep_eq_run, actions, run_append]

/-- The last response is made from the store that the history before it leaves. -/
theorem serve_concat_request
    (store : ContentStore)
    (past : List ServiceAction)
    (received : Request) :
    (store.serve (past ++ [.request received])).2 =
      (store.serve past).2 ++
        [((store.serve past).1.respond received).2] := by
  induction past generalizing store with
  | nil =>
      rfl
  | cons action rest inductionHypothesis =>
      simp only [List.cons_append, serve, inductionHypothesis,
        List.append_assoc]

/--
The service behaves as one loader on the same tree, request by request. After
any history its store is that of the direct calls. A request for a call makes
this call, and its response reports and wraps the result; every other request
changes nothing. Asking for the head differs in the missing body only.
-/
theorem service_refines_loader
    (names : SourceNames)
    (tree : FileTree)
    (past : List ServiceAction)
    (received : Request) :
    let start : ContentStore := ⟨tree, .ofNames names⟩
    let store := (start.serve past).1
    let direct := (start.run (past.filterMap ServiceAction.action?)).1
    let response := (store.respond received).2
    store = direct ∧
      (start.serve (past ++ [.request received])).2 =
        (start.serve past).2 ++ [response] ∧
      (∀ route call,
        received.AsksFor route call →
          (store.respond received).1 = (direct.answer call).1 ∧
            response.Reports route.subject (direct.answer call).2.result ∧
            (received.method = .get →
              response.Wraps (direct.answer call).2.result)) ∧
      ((∀ route call, ¬received.AsksFor route call) →
        (store.respond received).1 = store ∧
          response.event = none ∧
          ∀ elapsed, response.body.envelope? elapsed = none) ∧
      (∀ target,
        store.respond ⟨.head, target⟩ =
          ((store.respond ⟨.get, target⟩).1,
            { (store.respond ⟨.get, target⟩).2 with body := .nothing })) := by
  intro start store direct response
  have same : store = direct := start.serve_eq_run past
  refine ⟨same, start.serve_concat_request past received, ?calls, ?others, ?heads⟩
  case calls =>
    intro route call asks
    rw [← same]
    exact
      ⟨(store.respond_of_asksFor asks).1, store.reports_of_asksFor asks⟩
  case others =>
    intro asksNothing
    refine store.respond_of_call?_eq_none ?_
    rw [Option.eq_none_iff_forall_ne_some]
    intro call asked
    obtain ⟨route, asks⟩ := Request.call?_eq_some_iff.mp asked
    exact asksNothing route call asks
  case heads =>
    exact store.respond_head

/-- A request for a page that is not there reports that it is missing, and says so. -/
theorem service_refines_loader_missing :
    let response :=
      ((serve ⟨.empty, .ofNames {}⟩ []).1.respond
        ⟨.get, "/v1/pages/%61?full"⟩).2
    response.Reports "page" (.error (.unreadable "a" .missing)) ∧
      response.Wraps (.error (.unreadable "a" .missing)) := by
  intro response
  obtain ⟨_, _, calls, _⟩ :=
    service_refines_loader {} .empty [] ⟨.get, "/v1/pages/%61?full"⟩
  have asks :
      Request.AsksFor ⟨.get, "/v1/pages/%61?full"⟩ (.page "%61") (.page "a") :=
    ⟨Or.inl rfl, ⟨by decide, by decide⟩, by decide, .page (by decide)⟩
  obtain ⟨_, reports, wraps⟩ := calls (.page "%61") (.page "a") asks
  exact ⟨reports, wraps rfl⟩

end ContentStore

end AnchorScript
