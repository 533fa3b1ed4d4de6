/-
Text in quotation marks, as messages show it.

A quoted text can be read back: the quotation mark and the backslash carry a
backslash, the usual line controls have letters, and every other hidden character
stands as its code point in hexadecimal between braces.
-/
import IdentityStore.Text.Hidden

namespace IdentityStore.Text

/-- The lower-case hexadecimal digits of a number, the first not zero unless it is
the only one. -/
def hex (n : Nat) : String := String.ofList (Nat.toDigits 16 n)

/-- One character within quotation marks. -/
def quoteChar (c : Char) : String :=
  if c = '"' then "\\\""
  else if c = '\\' then "\\\\"
  else if c = '\n' then "\\n"
  else if c = '\r' then "\\r"
  else if c = '\t' then "\\t"
  else if c = '\x00' then "\\0"
  else if isHidden c then "\\u\x7b" ++ hex c.toNat ++ "\x7d"
  else c.toString

/-- A text within quotation marks. -/
def quote (s : String) : String := "\"" ++ String.join (s.toList.map quoteChar) ++ "\""

/-- A list of quoted texts in brackets. -/
def quoteList (names : List String) : String :=
  "[" ++ String.intercalate ", " (names.map quote) ++ "]"

end IdentityStore.Text
