/-
Sets of characters as ranges of code points.

A property of Unicode is a table of the closed ranges of the code points that have
it.  A character has the property if its code point lies in one of the ranges.
-/

namespace IdentityStore.Text

/-- Closed ranges of code points in rising order. -/
abbrev Ranges := List (Nat × Nat)

/-- Holds for the characters whose code points lie in one of the ranges. -/
def Ranges.has (rs : Ranges) (c : Char) : Bool :=
  rs.any fun r => r.1 ≤ c.toNat && c.toNat ≤ r.2

end IdentityStore.Text
