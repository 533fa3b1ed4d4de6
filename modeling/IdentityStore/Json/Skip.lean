/-
Passing over a value that nobody reads.

Only the form is checked: brackets match, names are quoted, words are spelt out.
Depth, size of numbers and encoding of text are nobody's business here, and a
comma too many is a value or a name that is missing.
-/
import IdentityStore.Json.Quoted
import IdentityStore.Json.Numeral

namespace IdentityStore.Json

/-- What follows the rest of a word. -/
def readWord : List Char → List UInt8 → Except Fault (List UInt8)
  | [], s => .ok s
  | _ :: _, [] => .error .endOfValue
  | c :: cs, b :: r => if b = byte c then readWord cs r else .error .expectedWord

/-- What has to come next while passing over a value. -/
inductive Pending where
  | value
  /-- An item or the end of a list; the flag tells whether a comma has to come first. -/
  | items (comma : Bool)
  /-- A member or the end of an object; likewise. -/
  | members (comma : Bool)
  deriving DecidableEq, Repr

/-- Passes over what is pending, and what lies around it, innermost first.  Each turn
but the last takes a byte or closes a bracket, so `turns` above the number of bytes
and pending parts is never used up. -/
def skipPending : (turns : Nat) → List Pending → List UInt8 → Except Fault (List UInt8)
  | _, [], s => .ok s
  | 0, _ :: _, _ => .error .endOfValue
  | turns + 1, .value :: around, s =>
    match skipBlank s with
    | [] => .error .endOfValue
    | b :: r =>
      if b = byte 'n' then (readWord "ull".toList r).bind (skipPending turns around)
      else if b = byte 't' then (readWord "rue".toList r).bind (skipPending turns around)
      else if b = byte 'f' then (readWord "alse".toList r).bind (skipPending turns around)
      else if b = minus then (skipNumber r).bind (skipPending turns around)
      else if isDigit b then (skipNumber (b :: r)).bind (skipPending turns around)
      else if b = quotationMark then (skipText r).bind (skipPending turns around)
      else if b = openBracket then skipPending turns (.items false :: around) r
      else if b = openBrace then skipPending turns (.members false :: around) r
      else .error .expectedValue
  | turns + 1, .items needsComma :: around, s =>
    match skipBlank s with
    | [] => .error .endOfList
    | b :: r =>
      if b = closeBracket then skipPending turns around r
      else if !needsComma then skipPending turns (.value :: .items true :: around) (b :: r)
      else if b = comma then skipPending turns (.value :: .items true :: around) r
      else .error .expectedListCommaOrEnd
  | turns + 1, .members needsComma :: around, s =>
    let name (s : List UInt8) : Except Fault (List UInt8) :=
      match skipBlank s with
      | [] => .error .endOfObject
      | b :: r =>
        if b = quotationMark then do
          let r ← skipText r
          match skipBlank r with
          | [] => .error .endOfObject
          | b :: r => if b = colon then .ok r else .error .expectedColon
        else .error .keyMustBeString
    match skipBlank s with
    | [] => .error .endOfObject
    | b :: r =>
      if b = closeBrace then skipPending turns around r
      else if !needsComma then
        (name (b :: r)).bind (skipPending turns (.value :: .members true :: around))
      else if b = comma then
        (name r).bind (skipPending turns (.value :: .members true :: around))
      else .error .expectedObjectCommaOrEnd

/-- What follows a value that nobody reads. -/
def skipValue (s : List UInt8) : Except Fault (List UInt8) :=
  skipPending (2 * s.length + 2) [.value] s

end IdentityStore.Json
