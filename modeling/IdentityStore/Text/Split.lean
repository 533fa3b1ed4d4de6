/-
Text that falls into pieces at a character.

There is always a first piece, and one more for every occurrence of the character;
put together again with the character between, the pieces are the text.
-/

namespace IdentityStore.Text

/-- The pieces of a text between the characters `mark`: the first and all others. -/
def pieces (mark : Char) : List Char → List Char × List (List Char)
  | [] => ([], [])
  | c :: r =>
    let p := pieces mark r
    if c = mark then ([], p.1 :: p.2) else (c :: p.1, p.2)

/-- The pieces as one list, which is never empty. -/
def split (mark : Char) (cs : List Char) : List (List Char) :=
  (pieces mark cs).1 :: (pieces mark cs).2

/-- Puts pieces together again. -/
def joinPieces (mark : Char) (first : List Char) (others : List (List Char)) : List Char :=
  first ++ others.flatMap (mark :: ·)

theorem joinPieces_pieces (mark : Char) (cs : List Char) :
    joinPieces mark (pieces mark cs).1 (pieces mark cs).2 = cs := by
  induction cs with
  | nil => rfl
  | cons c r ih =>
    by_cases h : c = mark
    · simpa [pieces, h, joinPieces] using ih
    · simpa [pieces, h, joinPieces] using ih

end IdentityStore.Text
