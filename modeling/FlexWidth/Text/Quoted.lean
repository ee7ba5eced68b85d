import FlexWidth.Text.Graphic

/-!
# Quoted text

Diagnostics show a piece of the program between double quotes, with a backslash
before a quote and a backslash, short names for the common controls, and
`\u{hex}` for every other character that is not graphic.
-/

namespace FlexWidth.Text

/-- The escape that names a character by its number, in lower-case hexadecimal
without padding. -/
def numericEscape (c : Char) : String :=
  "\\u\x7b" ++ String.ofList (Nat.toDigits 16 c.toNat) ++ "\x7d"

/-- How one character is written inside quotes. -/
def quotedChar (c : Char) : String :=
  if c = '"' then "\\\""
  else if c = '\\' then "\\\\"
  else if c = '\t' then "\\t"
  else if c = '\n' then "\\n"
  else if c = '\r' then "\\r"
  else if c = '\x00' then "\\0"
  else if isGraphic c then String.singleton c
  else numericEscape c

/-- A text between double quotes. -/
def quoted (text : String) : String :=
  "\"" ++ String.join (text.toList.map quotedChar) ++ "\""

end FlexWidth.Text
