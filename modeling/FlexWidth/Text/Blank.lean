/-!
# Blank characters

The characters that separate tokens: those with the Unicode property
`White_Space`.
-/

namespace FlexWidth.Text

/-- Whether a character is white space: the five controls from the tab to the
carriage return, the plain space, the next-line control, and the space
separators and line breaks of Unicode. -/
def isBlank (c : Char) : Bool :=
  let code := c.toNat
  (0x9 ≤ code && code ≤ 0xd) || code == 0x20 || code == 0x85 || code == 0xa0 || code == 0x1680 ||
    (0x2000 ≤ code && code ≤ 0x200a) || code == 0x2028 || code == 0x2029 || code == 0x202f ||
    code == 0x205f || code == 0x3000

end FlexWidth.Text
