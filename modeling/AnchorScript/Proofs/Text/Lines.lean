import AnchorScript.Proofs.Text.Pieces
import AnchorScript.Proofs.Text.Trimming
import AnchorScript.Text.Utf8

namespace AnchorScript.Text

/-!
# Lines and how they end

A line of a text may end with a line feed alone or with a carriage return in
front of it, and the last line need not end at all. Trimmed lines show nothing
of this, and they hold no line feed.
-/

/-- A line without the carriage return at its end. -/
def withoutReturn (line : List Char) : List Char :=
  if line.getLast? = some '\r' then line.dropLast else line

/--
The lines of a text. A line ends with a line feed, or with a carriage return and
a line feed; what stands behind the last line feed is a line if it is not empty.
-/
def endedLines (text : List Char) : List (List Char) :=
  let found := text.splitOn '\n'
  found.dropLast.map withoutReturn ++
    found.getLast?.toList.filter fun line => line ≠ []

/-- The lines of a text, trimmed; one byte-order mark in front of them is dropped. -/
def trimmedLines (text : String) : List (List Char) :=
  let unmarked :=
    if text.toList.head? = some '\uFEFF' then text.toList.drop 1
    else text.toList
  (endedLines unmarked).map trim

theorem trim_withoutReturn (line : List Char) :
    trim (withoutReturn line) = trim line := by
  unfold withoutReturn
  split
  · rename_i isReturn
    obtain ⟨front, rfl⟩ := List.getLast?_eq_some_iff.mp isReturn
    rw [List.dropLast_concat, trim_append_blanks front]
    exact List.forall_mem_singleton.mpr (by decide)
  · rfl

theorem withoutMark_eq_ite (text : List Char) :
    withoutMark text =
      if text.head? = some '\uFEFF' then text.drop 1 else text := by
  split
  · rename_i isMark
    obtain ⟨rest, rfl⟩ := List.head?_eq_some_iff.mp isMark
    rfl
  · rename_i unmarked
    exact withoutMark_of_head?_ne unmarked

/-- Trimmed lines do not show how they ended. -/
theorem map_trim_endedLines (text : List Char) :
    (endedLines text).map trim = (physicalLines text).map trim := by
  have ended
      (lines : List (List Char)) :
      (lines.map withoutReturn).map trim = lines.map trim := by
    simp only [List.map_map, Function.comp_def, trim_withoutReturn]
  simp only [endedLines, physicalLines, ← pieces_eq_splitOn,
    List.map_append, ended]
  cases isLast : (pieces '\n' text).getLast? with
  | none =>
      simp [List.getLast?_eq_none_iff.mp isLast]
  | some last =>
      obtain ⟨earlier, split⟩ := List.getLast?_eq_some_iff.mp isLast
      cases last with
      | nil => simp [split]
      | cons head tail => simp [split]

/-- The lines that are read are these lines, apart from the blanks around them. -/
theorem trimmedLines_eq_map_trim (text : String) :
    trimmedLines text =
      (physicalLines (withoutMark text.toList)).map trim := by
  rw [← map_trim_endedLines, withoutMark_eq_ite]
  rfl

theorem trim_of_mem_trimmedLines
    {text : String}
    {line : List Char}
    (member : line ∈ trimmedLines text) :
    trim line = line := by
  obtain ⟨written, _, rfl⟩ := List.mem_map.mp member
  exact trim_trim written

theorem lineFeed_not_mem_of_mem_trimmedLines
    {text : String}
    {line : List Char}
    (member : line ∈ trimmedLines text) :
    '\n' ∉ line := by
  rw [trimmedLines_eq_map_trim] at member
  obtain ⟨written, isLine, rfl⟩ := List.mem_map.mp member
  have part := trim_infix written
  intro inTrimmed
  exact lineFeed_not_mem_of_mem_physicalLines isLine (part.subset inTrimmed)

end AnchorScript.Text
