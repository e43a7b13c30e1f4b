namespace AnchorScript

/-!
# Faults

Reading statements never fails. What can fail is getting at them: a source name
may be refused, a source may not be readable, settings may not make sense. A
`Fault` says which of these it was, and `Fault.message` words it.
-/

/-- The kinds of cause that a failed read can have. -/
inductive CauseKind where
  | notFound
  | permissionDenied
  | invalidData
  | invalidInput
  | notDirectory
  | isDirectory
  | other
deriving Repr, DecidableEq

/-- Why a read failed, in kind and in words. -/
structure ReadCause where
  kind : CauseKind
  message : String
deriving Repr, DecidableEq

namespace ReadCause

/-- Nothing stands at the name. -/
def missing : ReadCause :=
  ⟨.notFound, "No such file or directory (os error 2)"⟩

/-- The name goes on below something that is not a directory. -/
def notDirectory : ReadCause :=
  ⟨.notDirectory, "Not a directory (os error 20)"⟩

/-- The name leads to a directory, which has no text. -/
def isDirectory : ReadCause :=
  ⟨.isDirectory, "Is a directory (os error 21)"⟩

/-- The bytes at the name are not a text. -/
def notText : ReadCause :=
  ⟨.invalidData, "stream did not contain valid UTF-8"⟩

/-- The name holds the character that no file name can hold. -/
def nullInName : ReadCause :=
  ⟨.invalidInput, "file name contained an unexpected NUL byte"⟩

end ReadCause

/-- What can go wrong outside the language itself. -/
inductive Fault where
  | settings (reason : String)
  | unreadable (name : String) (cause : ReadCause)
  | invalidName (name : String)
  | lock (reason : String)
  | serialization (reason : String)
  | server (reason : String)
deriving Repr, DecidableEq

namespace Fault

/-- The fault in words. -/
def message : Fault → String
  | settings reason => "Config error: " ++ reason
  | unreadable name cause =>
      "Cannot read source " ++ name ++ ": " ++ cause.message
  | invalidName name => "Invalid source name: " ++ name
  | lock reason => "Lock poisoned: " ++ reason
  | serialization reason => "Serialization error: " ++ reason
  | server reason => "Server error: " ++ reason

/-- Whether the fault is that a source does not exist. -/
def isNotFound : Fault → Bool
  | unreadable _ cause => cause.kind = .notFound
  | _ => false

/-- The status code with which a fault is answered. -/
def status : Fault → Nat
  | unreadable _ cause => if cause.kind = .notFound then 404 else 500
  | invalidName _ => 400
  | _ => 500

end Fault

end AnchorScript
