import AnchorScript.Reader.Arrow
import AnchorScript.Reader.LogicalLine

namespace AnchorScript

/-!
# Reading a source text

Reading never fails. Every logical line that is a statement becomes one, in
order; the others are skipped, and reported as skipped.
-/

/-- What reading a text gives. -/
structure Reading where
  document : Document
  skipped : List String
deriving Repr, DecidableEq

/-- What reading reports while it runs. -/
inductive ReadingEvent where
  | skipped (line : String)
  | finished (statements comments skipped : Nat)
deriving Repr, DecidableEq

namespace Reading

/-- The texts of the logical lines. -/
def lineTexts (joined : JoinedText) : List String :=
  joined.lines.filterMap LogicalLine.text?

/-- Read a source text. -/
def ofText (text : String) : Reading :=
  let joined := JoinedText.ofText text
  let lines := lineTexts joined
  { document :=
      { statements := lines.filterMap Statement.ofLine?
        comments := joined.comments }
    skipped := lines.filter fun line => (Statement.ofLine? line).isNone }

/-- One report for each skipped line, and the totals at the end. -/
def events (reading : Reading) : List ReadingEvent :=
  reading.skipped.map ReadingEvent.skipped ++
    [.finished reading.document.statements.length
      reading.document.comments.length reading.skipped.length]

end Reading

/-- The document that a source text describes. -/
def Document.ofText (text : String) : Document :=
  (Reading.ofText text).document

end AnchorScript
