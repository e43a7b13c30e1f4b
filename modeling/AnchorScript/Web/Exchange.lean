import AnchorScript.Content.Call
import AnchorScript.Content.Fault

namespace AnchorScript

/-!
# Requests and responses

A request is a method and a target. A response has a status, a few headers and
a body; content and faults are wrapped in an envelope, which says how the call
went and how long it took. Any origin may read a response.
-/

/-- A request method; only reading and asking for options matter. -/
inductive Method where
  | get
  | head
  | options
  | other (name : String)
deriving Repr, DecidableEq

/-- The method with a name. -/
def Method.ofText (name : String) : Method :=
  if name = "GET" then .get
  else if name = "HEAD" then .head
  else if name = "OPTIONS" then .options
  else .other name

/-- A request to the service. -/
structure Request where
  method : Method
  target : String
deriving Repr, DecidableEq

/-- The body of a response. -/
inductive Body where
  | nothing
  | plain (message : String)
  | content (found : Content)
  | fault (found : Fault)

namespace Body

/-- The envelope of content or of a fault, with the time that it took. -/
def envelope? (elapsed : Json) : Body → Option Json
  | nothing => none
  | plain _ => none
  | content found =>
      some (.record
        [("status", .text "ok"), ("elapsed_ms", elapsed),
          ("data", found.toJson)])
  | fault found =>
      some (.record
        [("status", .text "error"), ("elapsed_ms", elapsed),
          ("error", .text found.message)])

end Body

/-- What the service reports about a call that it made. -/
inductive ServiceEvent where
  | served (subject : String)
  | failed (subject message code : String)
deriving Repr, DecidableEq

/-- A response of the service. -/
structure Response where
  status : Nat
  contentType : Option String := none
  allow : Option String := none
  allowOrigin : String := "*"
  allowMethods : Option String := none
  allowHeaders : Option String := none
  body : Body := .nothing
  event : Option ServiceEvent := none

namespace Response

/-- Nothing is served at the target. -/
def notFound : Response :=
  { status := 404 }

/-- The target is served, but not by this method. -/
def methodNotAllowed : Response :=
  { status := 405, allow := some "GET,HEAD" }

/-- The options of a target, which is served or not. -/
def options (isServed : Bool) : Response :=
  { status := 200
    allow := if isServed then some "GET,HEAD" else none
    allowMethods := some "GET"
    allowHeaders := some "*" }

/-- The name in the target is not a text. -/
def undecodable : Response :=
  { status := 400
    contentType := some "text/plain; charset=utf-8"
    body := .plain "Invalid URL: Invalid UTF-8 in `name`" }

/-- The result of a call. -/
def ofResult
    (subject : String) :
    Except Fault Content → Response
  | .ok found =>
      { status := 200
        contentType := some "application/json"
        body := .content found
        event := some (.served subject) }
  | .error found =>
      { status := found.status
        contentType := some "application/json"
        body := .fault found
        event := some (.failed subject found.message (toString found.status)) }

/-- The same response without its body. -/
def withoutBody (response : Response) : Response :=
  { response with body := .nothing }

end Response

end AnchorScript
