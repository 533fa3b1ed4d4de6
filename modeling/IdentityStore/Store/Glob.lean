/-
Patterns for keys, in which a star stands for any run of characters.

A pattern falls into pieces at its stars.  The first piece has to begin the text
and the last to end it; each piece between is sought from the left, in what the
earlier ones have left over.
-/
import IdentityStore.Text.Split

namespace IdentityStore.Glob

/-- The character that stands for any run of characters. -/
def star : Char := '*'

/-- What follows a piece at the front of a text. -/
def dropFront? (piece text : List Char) : Option (List Char) :=
  if piece.isPrefixOf text then some (text.drop piece.length) else none

/-- What follows the first place where a piece occurs in a text. -/
def dropThrough? (piece : List Char) : List Char → Option (List Char)
  | [] => dropFront? piece []
  | c :: r =>
    match dropFront? piece (c :: r) with
    | some rest => some rest
    | none => dropThrough? piece r

/-- Whether a text has the given pieces one after the other, the last at its end. -/
def matchPieces : List (List Char) → List Char → Bool
  | [], text => text.isEmpty
  | [last], text => last.isSuffixOf text
  | piece :: pieces, text =>
    match dropThrough? piece text with
    | some rest => matchPieces pieces rest
    | none => false

/-- Whether a pattern matches all of a text. -/
def isMatch (pattern text : String) : Bool :=
  let p := Text.pieces star pattern.toList
  match dropFront? p.1 text.toList with
  | some rest => matchPieces p.2 rest
  | none => false

end IdentityStore.Glob
