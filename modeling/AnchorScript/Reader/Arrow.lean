import AnchorScript.Document
import AnchorScript.Reader.Block

namespace AnchorScript

/-!
# Statements on a line

A line is a statement when two bracketed anchors with an arrow between them
stand anywhere on it; the leftmost such place counts. The arrow is `->` or `→`,
with blanks around it. An anchor is not empty and runs to the first closing
bracket, so it may contain opening ones.
-/

namespace Reader

/-- The text between brackets at the front, and the text after them. -/
def bracketed? : List Char → Option (List Char × List Char)
  | '[' :: rest =>
      match Text.cut? ']' rest with
      | some ([], _) => none
      | found => found
  | _ => none

/-- The text after an arrow at the front. -/
def afterArrow? : List Char → Option (List Char)
  | '-' :: '>' :: rest => some rest
  | '→' :: rest => some rest
  | _ => none

/-- Source and target of an arrow form at the front. -/
def arrowHere?
    (text : List Char) :
    Option (List Char × List Char) :=
  match bracketed? text with
  | none => none
  | some (source, afterSource) =>
      match afterArrow? (Text.trimStart afterSource) with
      | none => none
      | some beforeTarget =>
          match bracketed? (Text.trimStart beforeTarget) with
          | none => none
          | some (target, _) => some (source, target)

/-- Source and target of the leftmost arrow form. -/
def arrow? : List Char → Option (List Char × List Char)
  | [] => none
  | first :: rest =>
      match arrowHere? (first :: rest) with
      | some found => some found
      | none => arrow? rest

end Reader

/-- The statement on a line, with the modifiers of all its blocks. -/
def Statement.ofLine? (line : String) : Option Statement :=
  (Reader.arrow? line.toList).map fun ends =>
    { source := Anchor.ofText ends.1
      target := Anchor.ofText ends.2
      modifiers := Modifiers.ofLine line.toList }

end AnchorScript
