/-
Text between quotation marks.

A quotation mark, a backslash and the control characters are written behind a
backslash; everything else stands for itself.  A code point may also be given by
four hexadecimal digits, or by two such groups that form a surrogate pair.

There are two readers.  `readText` yields the text and so has to check pairs and
encoding; `skipText` only finds the end, and lets pass what it does not look at.
-/
import IdentityStore.Fault
import IdentityStore.Json.Byte

namespace IdentityStore.Json

/-! ### Reading -/

/-- The byte that a letter behind a backslash stands for. -/
def escaped? (b : UInt8) : Option UInt8 :=
  if b = quotationMark || b = backslash || b = byte '/' then some b
  else if b = byte 'b' then some 0x08
  else if b = byte 'f' then some 0x0C
  else if b = byte 'n' then some 0x0A
  else if b = byte 'r' then some 0x0D
  else if b = byte 't' then some 0x09
  else none

/-- Holds for the first unit of a surrogate pair. -/
def isLeading (n : Nat) : Bool := 0xD800 ≤ n && n ≤ 0xDBFF

/-- Holds for the second unit of a surrogate pair. -/
def isTrailing (n : Nat) : Bool := 0xDC00 ≤ n && n ≤ 0xDFFF

/-- The code point of a surrogate pair. -/
def pairValue (leading trailing : Nat) : Nat :=
  (leading - 0xD800) * 0x400 + (trailing - 0xDC00) + 0x10000

/-- The bytes of a code point that is no surrogate. -/
def pointBytes (n : Nat) : List UInt8 := Utf8.encodeChar (Char.ofNat n)

private def lead (bytes : List UInt8) (rest : Except Fault (List UInt8 × List UInt8)) :
    Except Fault (List UInt8 × List UInt8) :=
  rest.map fun r => (bytes ++ r.1, r.2)

/-- The bytes up to the closing quotation mark, escapes replaced, and what follows
the mark. -/
def contents : List UInt8 → Except Fault (List UInt8 × List UInt8)
  | [] => .error .endOfString
  | b :: r =>
    if b = quotationMark then .ok ([], r)
    else if b = backslash then
      match r with
      | [] => .error .endOfString
      | e :: r =>
        if e = byte 'u' then
          match r with
          | h1 :: h2 :: h3 :: h4 :: r =>
            match hexValue4? h1 h2 h3 h4 with
            | none => .error .invalidEscape
            | some n =>
              if isTrailing n then .error .loneSurrogate
              else if isLeading n then
                match r with
                | [] => .error .endOfString
                | x :: r =>
                  if x = backslash then
                    match r with
                    | [] => .error .endOfString
                    | y :: r =>
                      if y = byte 'u' then
                        match r with
                        | l1 :: l2 :: l3 :: l4 :: r =>
                          match hexValue4? l1 l2 l3 l4 with
                          | none => .error .invalidEscape
                          | some m =>
                            if isTrailing m then lead (pointBytes (pairValue n m)) (contents r)
                            else .error .loneSurrogate
                        | _ => .error .endOfString
                      else .error .endOfEscape
                  else .error .endOfEscape
              else lead (pointBytes n) (contents r)
          | _ => .error .endOfString
        else
          match escaped? e with
          | some c => lead [c] (contents r)
          | none => .error .invalidEscape
    else if b < 0x20 then .error .controlCharacter
    else lead [b] (contents r)

/-- The text up to the closing quotation mark and what follows the mark. -/
def readText (s : List UInt8) : Except Fault (String × List UInt8) := do
  let (bytes, rest) ← contents s
  match Utf8.decode bytes with
  | .ok text => return (text, rest)
  | .error _ => throw .invalidCodePoint

/-- What follows the closing quotation mark. -/
def skipText : List UInt8 → Except Fault (List UInt8)
  | [] => .error .endOfString
  | b :: r =>
    if b = quotationMark then .ok r
    else if b = backslash then
      match r with
      | [] => .error .endOfString
      | e :: r =>
        if e = byte 'u' then
          match r with
          | h1 :: h2 :: h3 :: h4 :: r =>
            if (hexValue4? h1 h2 h3 h4).isSome then skipText r else .error .invalidEscape
          | _ => .error .endOfString
        else if (escaped? e).isSome then skipText r
        else .error .invalidEscape
    else if b < 0x20 then .error .controlCharacter
    else skipText r

/-! ### Writing -/

/-- A hexadecimal digit in lower case. -/
def hexDigit (n : Nat) : Char := Nat.digitChar (n % 16)

/-- One character between quotation marks. -/
def escapeChar (c : Char) : List Char :=
  if c = '"' then ['\\', '"']
  else if c = '\\' then ['\\', '\\']
  else if c = '\x08' then ['\\', 'b']
  else if c = '\x0c' then ['\\', 'f']
  else if c = '\n' then ['\\', 'n']
  else if c = '\r' then ['\\', 'r']
  else if c = '\t' then ['\\', 't']
  else if c.toNat < 0x20 then
    ['\\', 'u', '0', '0', hexDigit (c.toNat / 16), hexDigit c.toNat]
  else [c]

/-- A text between quotation marks. -/
def writeText (s : String) : String :=
  String.ofList ('"' :: s.toList.flatMap escapeChar ++ ['"'])

end IdentityStore.Json
