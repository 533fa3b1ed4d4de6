/-
One assignment: a name, an equals sign and a value.

The word `export` may stand in front of the name.  A value ends at a blank outside
quotes, behind which only a comment may follow.  Within single quotes all characters
mean themselves; elsewhere a backslash takes away the meaning of the next one, and a
dollar sign refers to a variable, whose value takes the place of its name.
-/
import IdentityStore.Text.Alphanumeric
import IdentityStore.Text.Blank

namespace IdentityStore.Environment

/-- What a line says. -/
inductive Statement where
  | nothing
  | assign (name value : String)
  deriving DecidableEq, Repr

/-- What follows blanks. -/
def skipBlank (s : List Char) : List Char := s.dropWhile Text.isBlank

/-- Holds for the characters that a name can begin with. -/
def isNameStart (c : Char) : Bool := c.isAlpha || c = '_'

/-- Holds for the characters of a name. -/
def isNamePart (c : Char) : Bool := c.isAlphanum || c = '_' || c = '.'

/-- A name, and what follows it and the blanks behind. -/
def readName? (s : List Char) : Option (List Char × List Char) :=
  match s with
  | [] => none
  | c :: _ =>
    if isNameStart c then some (s.takeWhile isNamePart, skipBlank (s.dropWhile isNamePart))
    else none

/-- What follows an equals sign and the blanks behind. -/
def readEquals? : List Char → Option (List Char)
  | '=' :: r => some (skipBlank r)
  | _ => none

/-- The character that a backslash and another stand for. -/
def unescape? (c : Char) : Option Char :=
  if c ∈ ['\\', '\'', '"', '$', ' '] then some c
  else if c = 'n' then some '\n'
  else none

/-- Holds for what may follow a value: blanks, and perhaps a comment. -/
def isEnd (s : List Char) : Bool :=
  match s.dropWhile fun c => c = ' ' || c = '\t' with
  | [] => true
  | c :: _ => c = '#'

/-- The name of a variable that a dollar sign refers to, and what follows.  A name in
braces may hold any character but the closing one, another only letters and digits. -/
def readReference? : List Char → Option (List Char × List Char)
  | '\x7b' :: r =>
    match r.dropWhile (· ≠ '\x7d') with
    | [] => none
    | _ :: rest => some (r.takeWhile (· ≠ '\x7d'), rest)
  | s => some (s.takeWhile Text.isAlphanumeric, s.dropWhile Text.isAlphanumeric)

/-- Holds for a reference whose name is not in braces. -/
def isOpenReference (s : List Char) : Bool := s.head? ≠ some '\x7b'

/-- Reads a value; `quote` is the quote that is open.  What stands right behind a name
without braces has no meaning of its own, unless it is another reference.  Each turn
takes a character, so `turns` above their number is never used up. -/
def readValue? (look : String → Option String) :
    (turns : Nat) → (quote : Option Char) → List Char → Option (List Char)
  | 0, _, _ => none
  | _ + 1, quote, [] => if quote.isSome then none else some []
  | turns + 1, quote, c :: r =>
    let next := readValue? look turns
    if quote = some '\'' then
      if c = '\'' then next none r else (next quote r).map (c :: ·)
    else if c = '\\' then
      match r with
      | [] => if quote.isSome then none else some []
      | e :: r => do return (← unescape? e) :: (← next quote r)
    else if c = '$' then do
      let (name, rest) ← readReference? r
      let value := ((look (String.ofList name)).getD "").toList
      match rest with
      | d :: rest =>
        if isOpenReference r ∧ d ≠ '$' then return value ++ d :: (← next quote rest)
        else return value ++ (← next quote (d :: rest))
      | [] => return value ++ (← next quote [])
    else if quote = some '"' then
      if c = '"' then next none r else (next quote r).map (c :: ·)
    else if c = '\'' ∨ c = '"' then next (some c) r
    else if c = ' ' ∨ c = '\t' then if isEnd r then some [] else none
    else (next quote r).map (c :: ·)

/-- The name that is assigned to, and what follows the equals sign and the blanks
behind.  The word `export` may be a name itself. -/
def readTarget? (s : List Char) : Option (List Char × List Char) := do
  let (name, s) ← readName? s
  match readEquals? s with
  | some s => return (name, s)
  | none =>
    if name = "export".toList then
      let (name, s) ← readName? s
      return (name, ← readEquals? s)
    else none

/-- What a line says, if it makes sense; `look` knows the variables that are set. -/
def readStatement? (look : String → Option String) (line : List Char) : Option Statement :=
  match Text.strip line with
  | [] => some .nothing
  | '#' :: _ => some .nothing
  | s => do
    let (name, s) ← readTarget? s
    let value ← if s.head? = some '#' then some [] else readValue? look (s.length + 1) none s
    return .assign (String.ofList name) (String.ofList value)

end IdentityStore.Environment
