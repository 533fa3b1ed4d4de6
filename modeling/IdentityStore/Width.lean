/-
The kinds of whole number that fields can hold.

A kind is a name, which messages use, and the least and the greatest number of the
kind.
-/
import IdentityStore.Fault

namespace IdentityStore

/-- A kind of whole number: its name and its bounds. -/
structure Width where
  name : String
  least : Int
  most : Int

namespace Width

def u8 : Width := ⟨"u8", 0, 255⟩
def u16 : Width := ⟨"u16", 0, 65535⟩
def u64 : Width := ⟨"u64", 0, 18446744073709551615⟩
def usize : Width := ⟨"usize", 0, 18446744073709551615⟩
def i64 : Width := ⟨"i64", -9223372036854775808, 9223372036854775807⟩

/-- A whole number within its bounds. -/
def fit (w : Width) (n : Int) : Except Fault Int :=
  if w.least ≤ n ∧ n ≤ w.most then .ok n else .error (.outOfRange n w.name)

end Width

end IdentityStore
