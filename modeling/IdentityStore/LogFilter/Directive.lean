/-
Directives of a log filter.

A directive says how much is logged of some messages.  It is a level for all
messages, or names a target, a scope in brackets or both, which an equals sign and a
level may follow; without a level all such messages are wanted.  Blanks at the two ends
are passed over until a level is read, of which they are a part.
-/
import IdentityStore.Text.Alphanumeric
import IdentityStore.Text.Blank
import IdentityStore.Text.Digit

namespace IdentityStore

/-- How much is logged. -/
inductive LogLevel where
  | off
  | error
  | warn
  | info
  | debug
  | trace
  deriving DecidableEq, Repr

namespace LogLevel

/-- The levels in rising order, with their words. -/
def words : List (String × LogLevel) :=
  [("off", .off), ("error", .error), ("warn", .warn), ("info", .info), ("debug", .debug),
    ("trace", .trace)]

/-- The number that decimal digits spell, perhaps with a plus sign in front. -/
def number? (cs : List Char) : Option Nat :=
  match cs with
  | '+' :: r => Text.decimal? r
  | cs => Text.decimal? cs

/-- Reads a level: its word in any case, or its number. -/
def read? (cs : List Char) : Option LogLevel :=
  match number? cs with
  | some n => (words[n]?).map (·.2)
  | none => words.lookup (String.ofList (cs.map Char.toLower))

end LogLevel

/-- What the work has to be that messages come from. -/
structure LogScope where
  /-- The name of the work. -/
  span : Option String := none
  /-- What must be known of the work. -/
  field : Option String := none
  deriving DecidableEq, Repr

/-- A part of a filter: the messages it is about and how much of them is logged. -/
structure LogDirective where
  /-- Where the messages come from, or anywhere. -/
  target : Option String := none
  scope : LogScope := {}
  level : LogLevel := .trace
  deriving DecidableEq, Repr

/-- Why a text is no filter. -/
inductive LogFilterFlaw where
  | badDirective
  | badLevel
  deriving DecidableEq, Repr

/-- What is said of the flaw. -/
def LogFilterFlaw.message : LogFilterFlaw → String
  | .badDirective => "invalid filter directive"
  | .badLevel =>
    "error parsing level filter: expected one of " ++
      String.intercalate ", " (LogLevel.words.map fun w => s!"\"{w.1}\"") ++ ", or a number 0-5"

/-- Reads a scope behind its opening bracket, and what follows.  Behind the name a field
may stand in braces. -/
def LogScope.read? (cs : List Char) : Option (LogScope × List Char) :=
  let isName (c : Char) : Bool := c ≠ ']' && c ≠ '\x7b'
  let name := cs.takeWhile isName
  match cs.dropWhile isName with
  | [] => none
  | ']' :: r => some ({ span := some (String.ofList name) }, r)
  | _ :: r =>
    let field := r.takeWhile (· ≠ '\x7d')
    match field, r.dropWhile (· ≠ '\x7d') with
    | _ :: _, '\x7d' :: ']' :: r =>
      let span := if name = [] then none else some (String.ofList name)
      some ({ span, field := some (String.ofList field) }, r)
    | _, _ => none

namespace LogDirective

/-- Holds for the characters that a target can begin with. -/
def isStart (c : Char) : Bool :=
  Text.isAlphanumeric c || c = '-' || c = ':' || c = '_'

/-- Gives a directive the level that stands behind an equals sign.  No blanks may stand
about, be they before the directive or behind it. -/
def withLevel (whole level : List Char) (d : LogDirective) : Except LogFilterFlaw LogDirective :=
  if whole.dropWhile Text.isBlank ≠ whole then .error .badLevel
  else
    match level ++ whole.drop (Text.strip whole).length with
    | [] => .ok d
    | level =>
      match LogLevel.read? level with
      | some level => .ok { d with level }
      | none => .error .badLevel

/-- Reads what follows the scope of a directive. -/
def readEnd (whole : List Char) (d : LogDirective) : List Char → Except LogFilterFlaw LogDirective
  | [] => .ok d
  | '=' :: level => d.withLevel whole level
  | _ => .error .badDirective

/-- Reads a scope behind its opening bracket, and what follows it. -/
def readScope (whole : List Char) (d : LogDirective) (cs : List Char) :
    Except LogFilterFlaw LogDirective :=
  match LogScope.read? cs with
  | some (scope, r) => readEnd whole { d with scope } r
  | none => .error .badDirective

/-- Reads a directive.  One word is a level if it can be, else a target. -/
def read (whole : List Char) : Except LogFilterFlaw LogDirective :=
  let isWord (c : Char) : Bool := c ≠ '=' && c ≠ '['
  match Text.strip whole with
  | [] => .error .badDirective
  | '[' :: r => readScope whole {} r
  | c :: r =>
    if !isStart c then .error .badDirective
    else
      let target := some (String.ofList ((c :: r).takeWhile isWord))
      match (c :: r).dropWhile isWord with
      | [] =>
        match LogLevel.read? whole with
        | some level => .ok { level }
        | none => .ok { target := some (String.ofList whole) }
      | '[' :: r => readScope whole { target } r
      | r => readEnd whole { target } r

end LogDirective

end IdentityStore
