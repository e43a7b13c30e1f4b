import AnchorScript.Content.Call
import AnchorScript.Content.Fault
import AnchorScript.Content.SourceName
import AnchorScript.Reader.Reading

namespace AnchorScript

/-!
# The loader

A loader keeps the document of every source that was loaded since it was last
cleared, so that a source is read once and all calls for it see the same
document. A document that is kept is never replaced, and a failure is never
kept. A name that could lead out of the content directory is refused before
anything else is looked at.
-/

/-- What a loader reports while it works. -/
inductive LoadEvent where
  | reading (event : ReadingEvent)
  | loaded (name : String) (statements comments : Nat)
  | cached (name : String)
deriving Repr, DecidableEq

/-- The names of the fixed sources, and the documents kept under their names. -/
structure Loader where
  names : SourceNames
  kept : List (String × Document)
deriving Repr, DecidableEq

/-- What comes out of a loading call, and what was reported on the way. -/
structure Outcome (α : Type) where
  result : Except Fault α
  events : List LoadEvent

/-- Change the value of a call that succeeds. -/
def Outcome.map
    {α β : Type}
    (change : α → β)
    (outcome : Outcome α) :
    Outcome β :=
  ⟨outcome.result.map change, outcome.events⟩

namespace Loader

/-- A loader that keeps nothing yet. -/
def ofNames (names : SourceNames) : Loader :=
  ⟨names, []⟩

/-- The document that is kept under a name. -/
def kept? (loader : Loader) (name : String) : Option Document :=
  loader.kept.lookup name

/-- Keep a document under a name, unless one is kept there already. -/
def keep
    (loader : Loader)
    (name : String)
    (document : Document) :
    Loader :=
  match loader.kept? name with
  | some _ => loader
  | none => { loader with kept := (name, document) :: loader.kept }

/-- Forget all documents. -/
def clear (loader : Loader) : Loader :=
  { loader with kept := [] }

/-- A name with a document keeps it. -/
theorem keep_of_some
    {loader : Loader}
    {name : String}
    {earlier : Document}
    (before : loader.kept? name = some earlier)
    (document : Document) :
    loader.keep name document = loader := by
  simp only [keep, before]

/-- A name without a document gets the new one. -/
theorem keep_of_none
    {loader : Loader}
    {name : String}
    (before : loader.kept? name = none)
    (document : Document) :
    loader.keep name document =
      { loader with kept := (name, document) :: loader.kept } := by
  simp only [keep, before]

/-- After keeping a document, the one kept first is there. -/
theorem kept?_keep_self
    (loader : Loader)
    (name : String)
    (document : Document) :
    (loader.keep name document).kept? name =
      some ((loader.kept? name).getD document) := by
  cases before : loader.kept? name with
  | none =>
      rw [keep_of_none before]
      simp [kept?]
  | some earlier =>
      rw [keep_of_some before, before]
      rfl

/-- Keeping a document changes nothing under other names. -/
theorem kept?_keep_of_ne
    (loader : Loader)
    {name other : String}
    (document : Document)
    (different : other ≠ name) :
    (loader.keep name document).kept? other = loader.kept? other := by
  cases before : loader.kept? name with
  | none =>
      have distinct : (other == name) = false := by
        simpa using different
      rw [keep_of_none before]
      simp [kept?, List.lookup_cons, distinct]
  | some earlier =>
      rw [keep_of_some before]

/-- What loading a text under a name reports. -/
def loadingEvents (name : String) (reading : Reading) : List LoadEvent :=
  reading.events.map LoadEvent.reading ++
    [.loaded name reading.document.statements.length
      reading.document.comments.length]

/-- The document of a source: the kept one, or else the one that is read now. -/
def document
    (read : String → Except ReadCause String)
    (name : String)
    (loader : Loader) :
    Loader × Outcome Document :=
  if SourceName.isInside name = false then
    (loader, ⟨.error (.invalidName name), []⟩)
  else
    match loader.kept? name with
    | some found => (loader, ⟨.ok found, [.cached name]⟩)
    | none =>
        match read name with
        | .error cause => (loader, ⟨.error (.unreadable name cause), []⟩)
        | .ok text =>
            let reading := Reading.ofText text
            (loader.keep name reading.document,
              ⟨.ok reading.document, loadingEvents name reading⟩)

/-- Answer a loading call. -/
def answer
    (read : String → Except ReadCause String)
    (call : Call)
    (loader : Loader) :
    Loader × Outcome Content :=
  let (next, outcome) :=
    loader.document read (call.sourceName loader.names)
  (next, outcome.map (call.contentOf loader.names))

end Loader

end AnchorScript
