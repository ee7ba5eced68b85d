import FlexWidth.Failure
import FlexWidth.Text.Numeral

/-!
# Input and output buffers

Integers of any width pass to and from the outside in buffers of 64-bit words.
-/

namespace FlexWidth

/-- The number of 64-bit words that hold an integer of the given width. The
width is rounded up to whole words inside the range of widths, which the widest
integers leave no room for. -/
def bufferWords (width : Nat) : Except Fault Nat :=
  if width + 63 < Text.widthLimit then .ok ((width + 63) / 64) else .error .widthOverflow

end FlexWidth
