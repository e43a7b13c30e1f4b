import AnchorScript.Content.History

namespace AnchorScript

/-!
# Interleaved calls

Calls for documents can overlap. A call takes three steps after its name was
accepted: it looks for a kept document, it reads and parses its source, and it
keeps what it parsed unless another call was faster. Each step is atomic, and
between two of them other calls may step, files may change, and the loader may
be cleared. A call gives what is kept after its last step, which need not be
what it parsed itself.
-/

/-- How far a call has come. -/
inductive CallProgress where
  | accepted (name : String)
  | missed (name : String)
  | parsed (name : String) (document : Document)
  | answered (name : String) (document : Document)
  | failed (name : String) (fault : Fault)
deriving Repr, DecidableEq

/-- A content store, and the calls of all callers. -/
structure SharedStore where
  store : ContentStore
  calls : Nat → Option CallProgress

/-- One move in an interleaving. -/
inductive Move where
  | ask (caller : Nat) (name : String)
  | advance (caller : Nat)
  | write (name : String) (content : ByteArray)
  | remove (name : String)
  | clear

namespace SharedStore

/-- A store without calls. -/
def ofStore (store : ContentStore) : SharedStore :=
  ⟨store, fun _ => none⟩

/-- Record the progress of one caller. -/
def record
    (caller : Nat)
    (progress : CallProgress)
    (shared : SharedStore) :
    SharedStore :=
  { shared with
    calls := fun other =>
      if other = caller then some progress else shared.calls other }

/-- A new call; its name is accepted or refused at once. -/
def ask
    (caller : Nat)
    (name : String)
    (shared : SharedStore) :
    SharedStore :=
  match shared.calls caller with
  | some _ => shared
  | none =>
      if SourceName.isInside name then
        shared.record caller (.accepted name)
      else
        shared.record caller (.failed name (.invalidName name))

/-- The next step of a call; a call that has ended, or never began, takes none. -/
def advance (caller : Nat) (shared : SharedStore) : SharedStore :=
  let store := shared.store
  match shared.calls caller with
  | some (.accepted name) =>
      match store.loader.kept? name with
      | some document => shared.record caller (.answered name document)
      | none => shared.record caller (.missed name)
  | some (.missed name) =>
      match store.tree.read name with
      | .ok text => shared.record caller (.parsed name (Document.ofText text))
      | .error cause =>
          shared.record caller (.failed name (.unreadable name cause))
  | some (.parsed name document) =>
      let loader := store.loader.keep name document
      let kept := (loader.kept? name).getD document
      { shared with store := { store with loader } }.record
        caller (.answered name kept)
  | _ => shared

/-- One move. -/
def move (shared : SharedStore) : Move → SharedStore
  | .ask caller name => shared.ask caller name
  | .advance caller => shared.advance caller
  | .write name content =>
      { shared with store := (shared.store.step (.write name content)).1 }
  | .remove name =>
      { shared with store := (shared.store.step (.remove name)).1 }
  | .clear =>
      { shared with store := (shared.store.step .clear).1 }

/-- The stores that an interleaving goes through, the first one included. -/
def run (shared : SharedStore) : List Move → List SharedStore
  | [] => [shared]
  | next :: rest => shared :: (shared.move next).run rest

/-- The progress of a caller is the one recorded last. -/
@[simp] theorem calls_record_self
    (caller : Nat)
    (progress : CallProgress)
    (shared : SharedStore) :
    (shared.record caller progress).calls caller = some progress := by
  simp [record]

/-- Recording leaves the other callers alone. -/
theorem calls_record_of_ne
    {caller other : Nat}
    (different : other ≠ caller)
    (progress : CallProgress)
    (shared : SharedStore) :
    (shared.record caller progress).calls other = shared.calls other := by
  simp [record, different]

end SharedStore

end AnchorScript
