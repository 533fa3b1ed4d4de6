/-
Digits of numbers.

Only those of ASCII count; the digits of other scripts are none where numbers are read.
-/

namespace IdentityStore.Text

/-- The value of a decimal digit. -/
def decimalDigit? (c : Char) : Option Nat :=
  if 0x30 ≤ c.toNat ∧ c.toNat ≤ 0x39 then some (c.toNat - 0x30) else none

/-- The value of a hexadecimal digit in either case. -/
def hexDigit? (c : Char) : Option Nat :=
  let n := c.toNat
  if 0x61 ≤ n ∧ n ≤ 0x66 then some (n - 0x61 + 10)
  else if 0x41 ≤ n ∧ n ≤ 0x46 then some (n - 0x41 + 10)
  else decimalDigit? c

/-- The natural that decimal digits spell, if they all are digits and there is one. -/
def decimal? (cs : List Char) : Option Nat :=
  if cs = [] then none
  else cs.foldlM (fun n c => (decimalDigit? c).map (n * 10 + ·)) 0

end IdentityStore.Text
