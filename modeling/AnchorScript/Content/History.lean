import AnchorScript.Content.FileTree
import AnchorScript.Content.Loader

namespace AnchorScript

/-!
# Histories of a content directory

A content store is a content directory together with the loader that reads it.
Files come and go and calls arrive in any order; a history is the list of these
actions, and running it gives one response for each loading call.
-/

/-- A content directory and its loader. -/
structure ContentStore where
  tree : FileTree
  loader : Loader

/-- What can happen to a content store. -/
inductive Action where
  | write (name : String) (content : ByteArray)
  | makeDirectory (name : String)
  | remove (name : String)
  | clear
  | call (request : Call)

namespace ContentStore

/-- An empty directory with a loader that keeps nothing. -/
def empty (names : SourceNames) : ContentStore :=
  ⟨.empty, .ofNames names⟩

/-- Change the entry at a name, and leave the loader alone. -/
def alter
    (change : Option FileTree → Option FileTree)
    (name : String)
    (store : ContentStore) :
    ContentStore :=
  { store with tree := store.tree.alterAt change name }

/-- Answer a loading call. -/
def answer
    (request : Call)
    (store : ContentStore) :
    ContentStore × Outcome Content :=
  let (loader, outcome) := store.loader.answer store.tree.read request
  ({ store with loader }, outcome)

/-- One action; only a loading call has an outcome. -/
def step
    (store : ContentStore)
    (action : Action) :
    ContentStore × Option (Outcome Content) :=
  match action with
  | .write name content =>
      (store.alter (FileTree.overwrite content) name, none)
  | .makeDirectory name =>
      (store.alter FileTree.ensureDirectory name, none)
  | .remove name =>
      (store.alter (fun _ => none) name, none)
  | .clear =>
      ({ store with loader := store.loader.clear }, none)
  | .call request =>
      let (next, outcome) := store.answer request
      (next, some outcome)

/-- Run a history, and collect what its loading calls give. -/
def run
    (store : ContentStore) :
    List Action → ContentStore × List (Outcome Content)
  | [] => (store, [])
  | action :: rest =>
      let (next, outcome) := store.step action
      let (final, outcomes) := next.run rest
      (final, outcome.toList ++ outcomes)

end ContentStore

end AnchorScript
