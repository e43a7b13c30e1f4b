import AnchorScript.Text.Blank
import AnchorScript.Text.Cut
import AnchorScript.Text.Utf8

namespace AnchorScript

/-!
# Logical lines

Statements may run over several physical lines. A line that starts with `[`
opens a logical line; a line that starts with anything else continues the one
before it, joined by a single space, unless a blank line or a comment stands
between. Blanks around a physical line never count.
-/

/-- What a physical line is, by its first character that is not blank. -/
inductive PhysicalLine where
  | blank
  | comment (body : List Char)
  | opening (text : List Char)
  | continuation (text : List Char)
deriving Repr, DecidableEq

namespace PhysicalLine

/-- Classify a line by its trimmed text. -/
def ofText (line : List Char) : PhysicalLine :=
  match Text.trim line with
  | [] => .blank
  | '#' :: body => .comment (Text.trim body)
  | '[' :: rest => .opening ('[' :: rest)
  | text => .continuation text

/-- The body of a comment. -/
def comment? : PhysicalLine → Option String
  | .comment body => some (String.ofList body)
  | _ => none

end PhysicalLine

/-- A separator stands for one blank line or one comment. -/
inductive LogicalLine where
  | separator
  | text (line : String)
deriving Repr, DecidableEq

namespace LogicalLine

/-- The text of a line that is not a separator. -/
def text? : LogicalLine → Option String
  | .separator => none
  | .text line => some line

/-- The logical line of a run of physical lines. -/
def ofRun (run : List (List Char)) : LogicalLine :=
  .text (String.ofList ([' '].intercalate run))

/--
Logical lines built from the end of a text: continuation lines are pending until
the line that they continue is known.
-/
structure Joining where
  pending : List (List Char)
  lines : List LogicalLine
deriving Repr, DecidableEq

namespace Joining

/-- Nothing is before the pending lines, so that they are a run of their own. -/
def close (joining : Joining) : List LogicalLine :=
  if joining.pending = [] then joining.lines
  else ofRun joining.pending :: joining.lines

/-- Put one more physical line in front. -/
def prepend
    (line : PhysicalLine)
    (joining : Joining) :
    Joining :=
  match line with
  | .blank => ⟨[], .separator :: joining.close⟩
  | .comment _ => ⟨[], .separator :: joining.close⟩
  | .opening first => ⟨[], ofRun (first :: joining.pending) :: joining.lines⟩
  | .continuation next => ⟨next :: joining.pending, joining.lines⟩

/-- The joining of all lines of a text. -/
def ofLines (lines : List PhysicalLine) : Joining :=
  lines.foldr prepend ⟨[], []⟩

end Joining

end LogicalLine

/-- The logical lines of a text and the bodies of its comments. -/
structure JoinedText where
  lines : List LogicalLine
  comments : List String
deriving Repr, DecidableEq

namespace JoinedText

/-- The physical lines of a text, classified. -/
def physicalLines (text : List Char) : List PhysicalLine :=
  (Text.physicalLines (Text.withoutMark text)).map PhysicalLine.ofText

/-- Join the lines of a text. -/
def ofText (text : String) : JoinedText :=
  let lines := physicalLines text.toList
  { lines := (LogicalLine.Joining.ofLines lines).close
    comments := lines.filterMap PhysicalLine.comment? }

end JoinedText

end AnchorScript
