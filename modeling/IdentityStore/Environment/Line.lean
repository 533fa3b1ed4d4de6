/-
The lines of a file of assignments.

A line goes on behind its end while a quote is open or a backslash waits for its
character.  A comment begins with a hash sign at the start of a line or right behind
a blank, and takes the rest of the line.
-/
import IdentityStore.Text.Blank
import IdentityStore.Text.Utf8

namespace IdentityStore.Environment

/-- Where a scan of a line stands. -/
inductive Standpoint where
  | plain
  /-- Behind a blank. -/
  | blank
  /-- Behind a backslash. -/
  | escaped
  /-- Within quotes of a kind. -/
  | quoted (quote : Char)
  /-- Within quotes, behind a backslash. -/
  | quotedEscaped (quote : Char)
  deriving DecidableEq, Repr

namespace Standpoint

/-- Where the scan stands behind a character that stands outside quotes and is not
taken for a blank. -/
def behind (c : Char) : Standpoint :=
  if c = '\\' then .escaped
  else if c = '"' ∨ c = '\'' then .quoted c
  else .plain

/-- Where the scan stands behind one more character.  Of two blanks only the first is
taken for one. -/
def next (c : Char) : Standpoint → Standpoint
  | .plain => if Text.isBlank c ∧ c ≠ '\n' ∧ c ≠ '\r' then .blank else behind c
  | .blank => behind c
  | .escaped => .plain
  | .quoted q => if c = '\\' then .quotedEscaped q else if c = q then .plain else .quoted q
  | .quotedEscaped q => .quoted q

end Standpoint

/-- What stands before a comment, and where the scan stands at the end of the line if
there is none. -/
def scan (p : Standpoint) : List Char → List Char × Option Standpoint
  | [] => ([], some p)
  | c :: r =>
    if p = .blank ∧ c = '#' then ([], none)
    else
      let (kept, q) := scan (p.next c) r
      (c :: kept, q)

/-- A line without the break at its end. -/
def withoutBreak (line : List Char) : List Char :=
  match line.reverse with
  | '\n' :: '\r' :: r => r.reverse
  | '\n' :: r => r.reverse
  | _ => line

/-- Holds for lines that hold a comment only. -/
def isComment (line : List Char) : Bool := (line.dropWhile Text.isBlank).head? = some '#'

/-- Joins the lines that go on, `pending` being what a line has come to and `p` where its
scan stands.  A line that is no text, or that never ends, is nothing. -/
def joinLines (pending : List Char) (p : Standpoint) :
    List (Option (List Char)) → List (Option (List Char))
  | [] => if p = .plain then [] else [none]
  | none :: _ => [none]
  | some line :: rest =>
    if isComment (pending ++ line) then some [] :: joinLines [] .plain rest
    else
      match scan p line with
      | (kept, none) => some (pending ++ kept) :: joinLines [] .plain rest
      | (_, some .plain) => some (withoutBreak (pending ++ line)) :: joinLines [] .plain rest
      | (_, some q) => joinLines (pending ++ line) q rest

/-- The lines of some bytes, each with its break. -/
def splitLines : List UInt8 → List (List UInt8)
  | [] => []
  | b :: r =>
    if b = 0x0A then [b] :: splitLines r
    else
      match splitLines r with
      | [] => [[b]]
      | line :: lines => (b :: line) :: lines

/-- The bytes behind a mark of byte order. -/
def withoutMark : List UInt8 → List UInt8
  | 0xEF :: 0xBB :: 0xBF :: r => r
  | bytes => bytes

/-- The lines of a file, joined where they go on. -/
def lines (bytes : List UInt8) : List (Option (List Char)) :=
  joinLines [] .plain
    ((splitLines (withoutMark bytes)).map fun line => (Utf8.decode line).toOption.map (·.toList))

end IdentityStore.Environment
