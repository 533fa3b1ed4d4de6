/-
Why a document cannot be read.

A document is read once, from left to right, by a reader that knows what it wants.
The first problem on the way is the answer, whether it lies in the text, in the
kind of a value, in the fields of a record, or in a rule of the domain that is
checked while reading.
-/
import IdentityStore.Flaw
import IdentityStore.Uuid
import IdentityStore.Text.Quoted

namespace IdentityStore

/-- The kind of value that stands where another was wanted. -/
inductive Found where
  | null
  | boolean (value : Bool)
  | integer (value : Int)
  /-- A floating-point number, as the format of the document writes it. -/
  | float (text : String)
  | text (value : String)
  | sequence
  | map
  deriving DecidableEq, Repr

/-- How the value is described. -/
def Found.message : Found → String
  | .null => "null"
  | .boolean b => s!"boolean `{b}`"
  | .integer n => s!"integer `{n}`"
  | .float t => s!"floating point `{t}`"
  | .text s => "string " ++ Text.quote s
  | .sequence => "sequence"
  | .map => "map"

/-- The first problem of a document. -/
inductive Fault where
  /-- The text ends where a value should begin or go on. -/
  | endOfValue
  | endOfObject
  | endOfList
  | endOfString
  | expectedColon
  | expectedObjectCommaOrEnd
  | expectedListCommaOrEnd
  | trailingComma
  | keyMustBeString
  /-- A word begins as `null`, `true` or `false` and goes on as something else. -/
  | expectedWord
  | expectedValue
  | invalidNumber
  | numberOutOfRange
  | invalidEscape
  | endOfEscape
  | loneSurrogate
  | controlCharacter
  | invalidCodePoint
  /-- Lists and objects lie within each other deeper than allowed. -/
  | nesting
  | trailingCharacters
  | wrongKind (found : Found) (expected : String)
  | outOfRange (value : Int) (expected : String)
  /-- A record written as a list lacks the item at `index`. -/
  | wrongLength (index : Nat) (record : String) (fields : Nat)
  | missingField (name : String)
  | duplicateField (name : String)
  | unknownVariant (given : String) (known : List String)
  | badUuid (flaw : Uuid.Flaw)
  | unknownAuthentication (number : Nat)
  | badUser (flaw : Flaw)
  deriving DecidableEq, Repr

namespace Fault

/-- A list of words that may be chosen from. -/
def choices : List String → String
  | [a] => s!"`{a}`"
  | [a, b] => s!"`{a}` or `{b}`"
  | names => "one of " ++ String.intercalate ", " (names.map fun n => s!"`{n}`")

/-- What is said of the problem. -/
def message : Fault → String
  | .endOfValue => "EOF while parsing a value"
  | .endOfObject => "EOF while parsing an object"
  | .endOfList => "EOF while parsing a list"
  | .endOfString => "EOF while parsing a string"
  | .expectedColon => "expected `:`"
  | .expectedObjectCommaOrEnd => "expected `,` or `\x7d`"
  | .expectedListCommaOrEnd => "expected `,` or `]`"
  | .trailingComma => "trailing comma"
  | .keyMustBeString => "key must be a string"
  | .expectedWord => "expected ident"
  | .expectedValue => "expected value"
  | .invalidNumber => "invalid number"
  | .numberOutOfRange => "number out of range"
  | .invalidEscape => "invalid escape"
  | .endOfEscape => "unexpected end of hex escape"
  | .loneSurrogate => "lone leading surrogate in hex escape"
  | .controlCharacter => "control character (\\u0000-\\u001F) found while parsing a string"
  | .invalidCodePoint => "invalid unicode code point"
  | .nesting => "recursion limit exceeded"
  | .trailingCharacters => "trailing characters"
  | .wrongKind found expected => s!"invalid type: {found.message}, expected {expected}"
  | .outOfRange value expected => s!"invalid value: integer `{value}`, expected {expected}"
  | .wrongLength index record fields =>
    let noun := if fields = 1 then "element" else "elements"
    s!"invalid length {index}, expected struct {record} with {fields} {noun}"
  | .missingField name => s!"missing field `{name}`"
  | .duplicateField name => s!"duplicate field `{name}`"
  | .unknownVariant given known => s!"unknown variant `{given}`, expected {choices known}"
  | .badUuid flaw => s!"UUID parsing failed: {flaw.message}"
  | .unknownAuthentication number => s!"unknown authentication type {number}"
  | .badUser flaw => flaw.message

end Fault

/-! ### Missing fields -/

/-- The fault of a missing field, by its place and its name. -/
abbrev Lack := (index : Nat) → (name : String) → Fault

/-- A field that has to be there. -/
def Lack.require {β : Type} (lack : Lack) (index : Nat) (name : String) :
    Option β → Except Fault β
  | some b => .ok b
  | none => .error (lack index name)

/-! ### Payloads -/

/-- Why a payload is no record: it cannot be read, or it breaks a rule. -/
inductive PayloadFault where
  | unreadable (fault : Fault)
  | flawed (flaw : Flaw)
  deriving DecidableEq, Repr

/-- What is said of the payload. -/
def PayloadFault.message : PayloadFault → String
  | .unreadable fault => s!"failed to decode payload: {fault.message}"
  | .flawed flaw => flaw.message

end IdentityStore
