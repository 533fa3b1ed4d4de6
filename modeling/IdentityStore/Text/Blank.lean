/-
White space as Unicode understands it, and text with it taken off both ends.

The set is the property `White_Space`: the ASCII blanks, the no-break and the
fixed-width spaces, and the line and paragraph separators.  The zero-width space
is not in it.
-/

namespace IdentityStore.Text

/-- Holds for the characters of the property `White_Space`. -/
def isBlank (c : Char) : Bool :=
  let n := c.toNat
  (0x09 ≤ n && n ≤ 0x0D) || n = 0x20 || n = 0x85 || n = 0xA0 || n = 0x1680 ||
    (0x2000 ≤ n && n ≤ 0x200A) || n = 0x2028 || n = 0x2029 || n = 0x202F || n = 0x205F ||
    n = 0x3000

/-- Characters without the blanks at their two ends. -/
def strip (cs : List Char) : List Char :=
  ((cs.dropWhile isBlank).reverse.dropWhile isBlank).reverse

/-- A text without the blanks at its two ends. -/
def trim (s : String) : String := String.ofList (strip s.toList)

end IdentityStore.Text
