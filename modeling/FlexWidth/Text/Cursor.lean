import FlexWidth.Text.Numeral

/-!
# Byte cursors

A position in a text, counted in bytes of its UTF-8 form. A cursor may be moved
anywhere that a 64-bit word can count to, so what follows it exists only if it
stands between two characters of the text or at its end.
-/

namespace FlexWidth.Text

/-- What remains of a text after its first `bytes` bytes, if a character starts
or the text ends there. -/
def dropBytes? : Nat → List Char → Option (List Char)
  | 0, chars => some chars
  | _ + 1, [] => none
  | bytes + 1, c :: chars =>
    if c.utf8Size ≤ bytes + 1 then dropBytes? (bytes + 1 - c.utf8Size) chars else none

/-- A byte position in a text. -/
structure Cursor where
  text : String
  offset : Nat

namespace Cursor

/-- The cursor at the start of a text. -/
def start (text : String) : Cursor := ⟨text, 0⟩

/-- Moves forward by a number of bytes, past the end if need be. No cursor
stands at a position that a 64-bit word cannot hold. -/
def advance? (cursor : Cursor) (bytes : Nat) : Option Cursor :=
  if cursor.offset + bytes < wordLimit then some ⟨cursor.text, cursor.offset + bytes⟩ else none

/-- Whether nothing of the text is left. -/
def atEnd (cursor : Cursor) : Bool := cursor.text.utf8ByteSize ≤ cursor.offset

/-- The text from the cursor on; there is none past the end or inside a
character. -/
def rest? (cursor : Cursor) : Option (List Char) :=
  dropBytes? cursor.offset cursor.text.toList

end Cursor

end FlexWidth.Text
