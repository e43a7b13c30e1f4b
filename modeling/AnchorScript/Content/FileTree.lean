import AnchorScript.Content.Fault
import AnchorScript.Content.SourceName

namespace AnchorScript

/-!
# Content trees

The content directory as a value: files with their bytes, and directories with
their members by name. A name is followed one segment at a time. An empty
segment or a dot stays where it is, yet like every other segment it can only be
taken in a directory. Names that climb are never followed here; loading refuses
them before.
-/

/-- A file with its bytes, or a directory. -/
inductive FileTree where
  | file (content : ByteArray)
  | directory (members : List (String × FileTree))

namespace FileTree

/-- A directory without members. -/
def empty : FileTree :=
  .directory []

/-- Follow segments from a place in the tree. -/
def follow : FileTree → List String → Except ReadCause FileTree
  | place, [] => .ok place
  | file _, _ :: _ => .error .notDirectory
  | directory found, segment :: rest =>
      if SourceName.staysPut segment then
        follow (directory found) rest
      else
        match found.lookup segment with
        | some member => member.follow rest
        | none => .error .missing

/-- The text at the end of a walk. -/
def text : FileTree → Except ReadCause String
  | directory _ => .error .isDirectory
  | file content =>
      match String.fromUTF8? content with
      | some written => .ok written
      | none => .error .notText

/--
Read the source with a name. The limits that a system sets to the length of a
name and of its segments are left out.
-/
def read (tree : FileTree) (name : String) : Except ReadCause String :=
  if name.toList.contains '\x00' then .error .nullInName
  else (tree.follow (SourceName.segments name)).bind text

/-- The members apart from those with a name. -/
def without
    (name : String)
    (members : List (String × FileTree)) :
    List (String × FileTree) :=
  members.filter fun member => member.1 ≠ name

/--
Change what stands at the end of a path. Directories that the path lacks are
made when something is put there; nothing can be put below a file.
-/
def alter
    (change : Option FileTree → Option FileTree) :
    List String → Option FileTree → Option FileTree
  | [], entry => change entry
  | _ :: _, some (file content) => some (file content)
  | name :: rest, none =>
      (alter change rest none).map fun member => directory [(name, member)]
  | name :: rest, some (directory members) =>
      match alter change rest (members.lookup name) with
      | some member => some (directory ((name, member) :: without name members))
      | none => some (directory (without name members))

/-- Change what stands at a name. -/
def alterAt
    (change : Option FileTree → Option FileTree)
    (name : String)
    (tree : FileTree) :
    FileTree :=
  let path := (SourceName.segments name).filter fun segment =>
    !SourceName.staysPut segment
  (alter change path (some tree)).getD empty

/-- Put bytes where no directory stands. -/
def overwrite (content : ByteArray) : Option FileTree → Option FileTree
  | some (directory members) => some (directory members)
  | _ => some (file content)

/-- Put a directory where nothing stands. -/
def ensureDirectory : Option FileTree → Option FileTree
  | some entry => some entry
  | none => some empty

end FileTree

end AnchorScript
