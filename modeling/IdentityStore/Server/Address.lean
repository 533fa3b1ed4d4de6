/-
The address under which a server is looked up.

A host, a port and the number of a database are put together to
`host:port/database`, and read again as any address would be: perhaps somebody who
connects and an at-sign, then a host, a colon and a port, then a path.  A host that
holds one of the marks between these parts can therefore shift them, and what
comes of it need not be an address.  Tabs and line breaks are passed over.  In a path
a part that is one point stays where it is, and one that is two points goes back.
-/
import IdentityStore.Text.Digit
import IdentityStore.Text.Split

namespace IdentityStore.Server

/-- Why an address is none. -/
inductive AddressFlaw where
  /-- There is no host where one has to be. -/
  | emptyHost
  /-- A character stands in the host that must not. -/
  | badCharacter
  /-- What is in brackets is no address of the sixth version. -/
  | badBrackets
  | badPort
  /-- There is no host, and nothing that asks for one. -/
  | noHost
  /-- The path has more than one part. -/
  | badPath
  /-- What the path names is not the number of a database. -/
  | badDatabase
  deriving DecidableEq, Repr

namespace Address

/-! ### Hosts in brackets -/

/-- Holds for the decimal spelling of a byte, without needless zeros. -/
def isByte (cs : List Char) : Bool :=
  (Text.decimal? cs).any fun n => n ≤ 255 && (cs.length = 1 || cs.head? ≠ some '0')

/-- Holds for four bytes with points between them. -/
def isFourBytes (cs : List Char) : Bool :=
  let parts := Text.split '.' cs
  parts.length = 4 && parts.all isByte

/-- Holds for the groups that complete `count` ones: there are eight altogether, or
fewer if two colons have squeezed some out.  The last two may be written as bytes. -/
def isGroups : (turns count : Nat) → (squeezed : Bool) → List Char → Bool
  | 0, _, _, _ => false
  | _ + 1, count, squeezed, [] => squeezed || count = 8
  | turns + 1, count, squeezed, c :: r =>
    if count = 8 then false
    else if c = ':' then !squeezed && isGroups turns (count + 1) true r
    else
      let digits := ((c :: r).take 4).takeWhile fun c => (Text.hexDigit? c).isSome
      match (c :: r).drop digits.length with
      | [] => squeezed || count = 7
      | '.' :: _ => isFourBytes (c :: r) && (count = 6 || (squeezed && count < 6))
      | ':' :: [] => false
      | ':' :: r => digits ≠ [] && isGroups turns (count + 1) squeezed r
      | _ => false

/-- Holds for an address of the sixth version. -/
def isSixth : List Char → Bool
  | ':' :: ':' :: r => isGroups (r.length + 1) 1 true r
  | ':' :: _ | [] => false
  | cs => isGroups (cs.length + 1) 0 false cs

/-! ### Parts of an address -/

/-- The characters that may not stand in a host, beyond those that part it off. -/
def forbidden : List Char := ['\x00', ' ', '<', '>', '[', '\\', ']', '^', '|']

/-- What is wrong with the characters of a host. -/
def hostFlaw? (host : List Char) : Option AddressFlaw :=
  match host with
  | '[' :: inner =>
    if inner.getLast? = some ']' ∧ isSixth inner.dropLast then none else some .badBrackets
  | cs => if cs.any forbidden.contains then some .badCharacter else none

/-- The host in front and what follows it: within brackets a colon is part of it. -/
def splitHost (inBrackets : Bool) : List Char → List Char × List Char
  | [] => ([], [])
  | c :: r =>
    if c = ':' ∧ !inBrackets then ([], c :: r)
    else
      let p := splitHost (c = '[' || (inBrackets && c ≠ ']')) r
      (c :: p.1, p.2)

/-- What follows a port, which may be left out.  Only a backslash ends one. -/
def dropPort? (cs : List Char) : Option (List Char) :=
  let digits := cs.takeWhile fun c => (Text.decimalDigit? c).isSome
  let rest := cs.drop digits.length
  if (Text.decimal? digits).getD 0 < 65536 ∧ (rest = [] ∨ rest.head? = some '\\') then some rest
  else none

/-- Holds for the characters that end the host and the port. -/
def isPathStart (c : Char) : Bool := c = '/' || c = '?' || c = '#'

/-- Holds for the number of a database, perhaps with a plus sign in front. -/
def isDatabase : List Char → Bool
  | '+' :: r => (Text.decimal? r).any (· < 256)
  | cs => (Text.decimal? cs).any (· < 256)

/-- A part of a path with its points written out: a point may be told by its number. -/
def plainPoints : List Char → List Char
  | '%' :: '2' :: 'e' :: r => '.' :: plainPoints r
  | '%' :: '2' :: 'E' :: r => '.' :: plainPoints r
  | c :: r => c :: plainPoints r
  | [] => []

/-- The parts that a path comes to when `found` are those so far, the last in front. -/
def resolve (found : List (List Char)) : List (List Char) → List (List Char)
  | [] => found.reverse
  | part :: rest =>
    let points := plainPoints part
    if points = ['.'] ∨ points = ['.', '.'] then
      let kept := if points = ['.'] then found else found.tail
      resolve (if rest = [] then [] :: kept else kept) rest
    else resolve (part :: found) rest

/-- What is wrong with a path: it may be empty, or hold the number of a database. -/
def pathFlaw? (path : List Char) : Option AddressFlaw :=
  match resolve [] (Text.split '/' (path.takeWhile fun c => c ≠ '?' && c ≠ '#')).tail with
  | [] => none
  | [part] => if part = [] ∨ isDatabase part then none else some .badDatabase
  | _ => some .badPath

/-- What is wrong with a host and a port, perhaps after a user, and the path behind them. -/
def partsFlaw? (hasUser : Bool) (authority path : List Char) : Option AddressFlaw :=
  let (host, rest) := splitHost false authority
  (hostFlaw? host).or <|
    match host, rest with
    | [], [] => some (if hasUser then .emptyHost else .noHost)
    | [], _ => some .emptyHost
    | _, [] => pathFlaw? path
    | _, _ :: port =>
      match dropPort? port with
      | none => some .badPort
      | some [] => pathFlaw? path
      | some behind => pathFlaw? ('/' :: behind ++ path)

/-- Holds for the characters of an address that are not passed over. -/
def isSeen (c : Char) : Bool := c ≠ '\t' && c ≠ '\n' && c ≠ '\r'

/-- What is wrong with an address. -/
def flaw? (address : List Char) : Option AddressFlaw :=
  let cs := address.filter isSeen
  let path := cs.dropWhile fun c => !isPathStart c
  let front := Text.split '@' (cs.takeWhile fun c => !isPathStart c)
  -- A colon alone stands for a user without name and password, which is none.
  let hasUser := front.length ≠ 1 && front.dropLast ≠ [[':']]
  partsFlaw? hasUser (front.getLastD []) path

end Address

end IdentityStore.Server
