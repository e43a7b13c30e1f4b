import AnchorScript.Content.History
import AnchorScript.Web.Exchange
import AnchorScript.Web.Route

namespace AnchorScript

/-!
# The service

The service answers requests with a loader. Only a request to read a route
whose name decodes makes a loading call; everything else leaves the loader as
it is. Asking for the head of a response makes the same call as asking for the
whole.
-/

namespace Loader

/-- Answer a request to read a route. -/
def readRoute
    (read : String → Except ReadCause String)
    (route : Route)
    (loader : Loader) :
    Loader × Response :=
  match route.call? with
  | none => (loader, .undecodable)
  | some call =>
      let (next, outcome) := loader.answer read call
      (next, .ofResult route.subject outcome.result)

/-- Answer a request. -/
def respond
    (read : String → Except ReadCause String)
    (request : Request)
    (loader : Loader) :
    Loader × Response :=
  match request.method, Route.ofTarget? request.target with
  | .options, route => (loader, .options route.isSome)
  | _, none => (loader, .notFound)
  | .get, some route => loader.readRoute read route
  | .head, some route =>
      let (next, response) := loader.readRoute read route
      (next, response.withoutBody)
  | .other _, some _ => (loader, .methodNotAllowed)

end Loader

/-- Answer a request from a content store. -/
def ContentStore.respond
    (request : Request)
    (store : ContentStore) :
    ContentStore × Response :=
  let (loader, response) := store.loader.respond store.tree.read request
  ({ store with loader }, response)

end AnchorScript
