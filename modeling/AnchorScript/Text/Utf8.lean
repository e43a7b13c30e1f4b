namespace AnchorScript.Text

/-!
# Bytes read as text

Bytes that need not be a text are read as UTF-8 one by one. What is owed to the
current character is kept between bytes: its bits so far, how many bytes are
still to come, and the bounds of the next one. Where a byte does not fit, one
replacement character stands for the bytes that did, and the byte starts anew.
A byte-order mark at the front of a text is no part of what the text says.
-/

/-- A character whose first bytes were read and whose next byte is bounded. -/
structure Unfinished where
  bits : Nat
  owed : Nat
  least : UInt8
  greatest : UInt8
deriving Repr, DecidableEq

/-- The character that stands for bytes which are no text. -/
def replacement : Char := '\ufffd'

/-- What the first byte of a character of several bytes owes. -/
def opening? (first : UInt8) : Option Unfinished :=
  let bits := first.toNat
  if 0xC2 ≤ first ∧ first ≤ 0xDF then some ⟨bits - 0xC0, 1, 0x80, 0xBF⟩
  else if first = 0xE0 then some ⟨0, 2, 0xA0, 0xBF⟩
  else if first = 0xED then some ⟨0xD, 2, 0x80, 0x9F⟩
  else if 0xE1 ≤ first ∧ first ≤ 0xEF then some ⟨bits - 0xE0, 2, 0x80, 0xBF⟩
  else if first = 0xF0 then some ⟨0, 3, 0x90, 0xBF⟩
  else if 0xF1 ≤ first ∧ first ≤ 0xF3 then some ⟨bits - 0xF0, 3, 0x80, 0xBF⟩
  else if first = 0xF4 then some ⟨4, 3, 0x80, 0x8F⟩
  else none

/-- A byte that starts a character: what is complete by it, and what is owed. -/
def startCharacter (byte : UInt8) : List Char × Option Unfinished :=
  if byte < 0x80 then ([Char.ofNat byte.toNat], none)
  else
    match opening? byte with
    | some unfinished => ([], some unfinished)
    | none => ([replacement], none)

/-- The next byte: the characters that are complete by it, and what is owed then. -/
def continueCharacter
    (owing : Option Unfinished)
    (byte : UInt8) :
    List Char × Option Unfinished :=
  match owing with
  | none => startCharacter byte
  | some unfinished =>
      if unfinished.least ≤ byte ∧ byte ≤ unfinished.greatest then
        let bits := unfinished.bits * 64 + (byte.toNat - 0x80)
        if unfinished.owed ≤ 1 then ([Char.ofNat bits], none)
        else ([], some ⟨bits, unfinished.owed - 1, 0x80, 0xBF⟩)
      else
        let (complete, next) := startCharacter byte
        (replacement :: complete, next)

/-- The characters of bytes, when something may be owed from before. -/
def charactersAfter : Option Unfinished → List UInt8 → List Char
  | none, [] => []
  | some _, [] => [replacement]
  | owing, byte :: rest =>
      let (complete, next) := continueCharacter owing byte
      complete ++ charactersAfter next rest

/-- The characters of bytes. -/
def characters (bytes : List UInt8) : List Char :=
  charactersAfter none bytes

/-- A text without one byte-order mark at its front. -/
def withoutMark : List Char → List Char
  | '\uFEFF' :: rest => rest
  | text => text

/-- A text that does not start with the mark is left as it is. -/
theorem withoutMark_of_head?_ne
    {text : List Char}
    (unmarked : text.head? ≠ some '\uFEFF') :
    withoutMark text = text := by
  unfold withoutMark
  split
  · simp at unmarked
  · rfl

end AnchorScript.Text
