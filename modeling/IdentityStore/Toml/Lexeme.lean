/-
The smallest parts of a document of tables: blanks, comments, texts, numbers and
dates.

Every reader takes the characters in front of it and yields what it read and what
follows, or nothing if there is no such part.
-/
import IdentityStore.Decimal.Shortest
import IdentityStore.Text.Digit

namespace IdentityStore.Toml

/-- Yields what was read and what follows, or nothing. -/
abbrev Scan (α : Type) := List Char → Option (α × List Char)

/-! ### Blanks and comments -/

/-- Spaces and tabs. -/
def isBlank (c : Char) : Bool := c = ' ' || c = '\t'

/-- What follows spaces and tabs. -/
def skipBlank (s : List Char) : List Char := s.dropWhile isBlank

/-- Holds for the characters that may stand in a line: all but controls. -/
def isInLine (c : Char) : Bool := c = '\t' || (0x20 ≤ c.toNat && c.toNat ≠ 0x7F)

/-- What follows a line break. -/
def dropBreak? : List Char → Option (List Char)
  | '\n' :: r => some r
  | '\r' :: '\n' :: r => some r
  | _ => none

/-- What follows a comment, if one begins here. -/
def skipComment : List Char → List Char
  | '#' :: r => r.dropWhile isInLine
  | s => s

/-- What follows the rest of a line that may hold only a comment. -/
def endLine? (s : List Char) : Option (List Char) :=
  match skipComment (skipBlank s) with
  | [] => some []
  | s => dropBreak? s

/-- What follows blanks, comments and line breaks. -/
def skipLines : (turns : Nat) → List Char → List Char
  | 0, s => s
  | turns + 1, s =>
    let t := skipComment (skipBlank s)
    match dropBreak? t with
    | some r => skipLines turns r
    | none => t

/-! ### Texts -/

/-- The character whose code point some hexadecimal digits spell. -/
def codePoint? (ds : List Char) : Option Char := do
  let n ← ds.foldlM (fun n c => (Text.hexDigit? c).map (n * 16 + ·)) 0
  if h : n.isValidChar then some (Char.ofNatAux n h) else none

/-- The character that is written behind a backslash, and what follows. -/
def escape? : Scan Char
  | 'b' :: r => some ('\x08', r)
  | 't' :: r => some ('\t', r)
  | 'n' :: r => some ('\n', r)
  | 'f' :: r => some ('\x0c', r)
  | 'r' :: r => some ('\r', r)
  | '"' :: r => some ('"', r)
  | '\\' :: r => some ('\\', r)
  | 'u' :: r => if 4 ≤ r.length then (codePoint? (r.take 4)).map (·, r.drop 4) else none
  | 'U' :: r => if 8 ≤ r.length then (codePoint? (r.take 8)).map (·, r.drop 8) else none
  | _ => none

/-- A text between two quotes on one line.  Behind a quotation mark, escapes count. -/
def lineText (quote : Char) : (turns : Nat) → Scan (List Char)
  | 0, _ => none
  | _ + 1, [] => none
  | turns + 1, c :: r =>
    if c = quote then some ([], r)
    else if c = '\\' ∧ quote = '"' then do
      let (e, r) ← escape? r
      let (cs, r) ← lineText quote turns r
      return (e :: cs, r)
    else if isInLine c then (lineText quote turns r).map fun t => (c :: t.1, t.2)
    else none

/-- What follows blanks and line breaks. -/
def skipBreaks : (turns : Nat) → List Char → List Char
  | 0, s => s
  | turns + 1, s =>
    match dropBreak? (skipBlank s) with
    | some r => skipBreaks turns r
    | none => skipBlank s

/-- A text between two triples of quotes, over several lines.  Up to two quotes may
stand before the closing triple.  A backslash at the end of a line joins it to what
comes next. -/
def blockText (quote : Char) : (turns : Nat) → Scan (List Char)
  | 0, _ => none
  | _ + 1, [] => none
  | turns + 1, c :: r =>
    if c = quote ∧ (r.take 2) = [quote, quote] then
      let more := ((r.drop 2).takeWhile (· = quote)).length
      let extra := min more 2
      some (List.replicate extra quote, r.drop (2 + extra))
    else if c = '\\' ∧ quote = '"' then
      match dropBreak? (skipBlank r) with
      | some r => blockText quote turns (skipBreaks (r.length + 1) r)
      | none => do
        let (e, r) ← escape? r
        let (cs, r) ← blockText quote turns r
        return (e :: cs, r)
    else
      match dropBreak? (c :: r) with
      | some r => (blockText quote turns r).map fun t => ('\n' :: t.1, t.2)
      | none =>
        if isInLine c then (blockText quote turns r).map fun t => (c :: t.1, t.2) else none

/-- A text in any of the four ways of quoting, or only the two that fit on a line. -/
def text (lineOnly : Bool) : Scan String
  | c :: r =>
    if c = '"' ∨ c = '\'' then
      let got :=
        if !lineOnly ∧ r.take 2 = [c, c] then
          let body := r.drop 2
          let body := (dropBreak? body).getD body
          blockText c (body.length + 1) body
        else lineText c (r.length + 1) r
      got.map fun t => (String.ofList t.1, t.2)
    else none
  | [] => none

/-! ### Keys -/

/-- Holds for the characters of a key that needs no quotes. -/
def isBare (c : Char) : Bool :=
  let n := c.toNat
  (0x30 ≤ n && n ≤ 0x39) || (0x41 ≤ n && n ≤ 0x5A) || (0x61 ≤ n && n ≤ 0x7A) || c = '-' || c = '_'

/-- One part of a key. -/
def keyPart : Scan String := fun s =>
  match s.takeWhile isBare with
  | [] => text true s
  | cs => some (String.ofList cs, s.dropWhile isBare)

/-- How many parts a key may have at most. -/
def maxKeyParts : Nat := 79

/-- The parts of a key, parted by points. -/
def keyParts : (turns : Nat) → Scan (List String)
  | 0, _ => none
  | turns + 1, s => do
    let (part, r) ← keyPart (skipBlank s)
    let r := skipBlank r
    match r with
    | '.' :: r =>
      let (parts, r) ← keyParts turns r
      return (part :: parts, r)
    | r => return ([part], r)

/-- A key: the way to its table and its name there. -/
def key : Scan (List String × String) := fun s => do
  let (parts, r) ← keyParts maxKeyParts s
  return ((parts.dropLast, ← parts.getLast?), r)

/-! ### Numbers and dates -/

/-- Holds for the decimal digits. -/
def isDigit (c : Char) : Bool := 0x30 ≤ c.toNat && c.toNat ≤ 0x39

/-- The digits of a number, which single low lines may part. -/
def parted (isGood : Char → Bool) : List Char → Option (List Char)
  | [] => none
  | [c] => if isGood c then some [c] else none
  | c :: '_' :: r => if isGood c then (parted isGood r).map (c :: ·) else none
  | c :: r => if isGood c then (parted isGood r).map (c :: ·) else none

/-- The natural that digits of a base spell. -/
def natural (base : Nat) (ds : List Char) : Nat :=
  ds.foldl (fun n c => n * base + (Text.hexDigit? c).getD 0) 0

/-- A sign, if there is one, and what follows it. -/
def sign : List Char → Bool × List Char
  | '-' :: r => (true, r)
  | '+' :: r => (false, r)
  | s => (false, s)

/-- The digits of a whole part: no needless zero in front. -/
def wholePart (s : List Char) : Option (List Char) :=
  match s with
  | '0' :: _ :: _ => none
  | s => parted isDigit s

/-- A whole number that fits 64 bits. -/
def fit (n : Int) : Option Int :=
  if -9223372036854775808 ≤ n ∧ n ≤ 9223372036854775807 then some n else none

/-- A whole number. -/
def integer? (token : List Char) : Option Int :=
  match token with
  | '0' :: 'x' :: r => (parted (fun c => (Text.hexDigit? c).isSome) r).bind fun ds => fit (natural 16 ds)
  | '0' :: 'o' :: r =>
    (parted (fun c => isDigit c && c.toNat ≤ 0x37) r).bind fun ds => fit (natural 8 ds)
  | '0' :: 'b' :: r =>
    (parted (fun c => c = '0' || c = '1') r).bind fun ds => fit (natural 2 ds)
  | token => do
    let (negative, r) := sign token
    let n : Int := natural 10 (← wholePart r)
    fit (if negative then -n else n)

/-- The number nearest to `digits` times ten to the power `power`, unless it is beyond all
numbers. -/
def nearest? (negative : Bool) (digits : Nat) (power : Int) : Option Binary64 :=
  let first : Int := Binary64.width digits + power
  if digits = 0 ∨ first < -400 then Binary64.ofRatio? negative 0 1
  else if 400 < first then none
  else if 0 ≤ power then Binary64.ofRatio? negative (digits * Nat.pow 10 power.toNat) 1
  else Binary64.ofRatio? negative digits (Nat.pow 10 (-power).toNat)

/-- A floating-point number, as messages show it.  One that is too large is none, but one
that is too small passes for minus infinity. -/
def float? (token : List Char) : Option String := do
  let (negative, r) := sign token
  let minus := if negative then "-" else ""
  if r = "inf".toList then some (minus ++ "inf")
  else if r = "nan".toList then some "NaN"
  else do
    let mark (c : Char) : Bool := c = 'e' || c = 'E'
    let front := r.takeWhile fun c => !mark c
    let power ←
      match r.dropWhile fun c => !mark c with
      | [] => some none
      | _ :: e => do
        let (negative, e) := sign e
        let n : Int := natural 10 (← parted isDigit e)
        some (some (if negative then -n else n))
    let whole ← wholePart (front.takeWhile (· ≠ '.'))
    let fraction ←
      match front.dropWhile (· ≠ '.') with
      | [] => some none
      | _ :: f => (parted isDigit f).map some
    if power.isNone ∧ fraction.isNone then none
    else do
      let behind := fraction.getD []
      match nearest? negative (natural 10 (whole ++ behind)) (power.getD 0 - behind.length) with
      | some x => some (x.render .plain)
      | none => if negative then some "-inf" else none

/-- A number of just so many digits within bounds, and what follows. -/
def field (count least most : Nat) : Scan Nat := fun s =>
  let ds := s.take count
  let n := natural 10 ds
  if ds.length = count ∧ ds.all isDigit ∧ least ≤ n ∧ n ≤ most then some (n, s.drop count)
  else none

/-- What follows a character that has to be there. -/
def expect (c : Char) : List Char → Option (List Char)
  | d :: r => if d = c then some r else none
  | [] => none

/-- How many days a month has. -/
def daysIn (year month : Nat) : Nat :=
  if month = 2 then
    if year % 4 = 0 ∧ (year % 100 ≠ 0 ∨ year % 400 = 0) then 29 else 28
  else if month ∈ [4, 6, 9, 11] then 30 else 31

/-- What follows a date. -/
def date? (s : List Char) : Option (List Char) := do
  let (year, s) ← field 4 0 9999 s
  let (month, s) ← field 2 1 12 (← expect '-' s)
  let (_, s) ← field 2 1 (daysIn year month) (← expect '-' s)
  return s

/-- What follows a time of day. -/
def time? (s : List Char) : Option (List Char) := do
  let (_, s) ← field 2 0 23 s
  let (_, s) ← field 2 0 59 (← expect ':' s)
  let (_, s) ← field 2 0 60 (← expect ':' s)
  match s with
  | '.' :: r => if (r.takeWhile isDigit).isEmpty then none else some (r.dropWhile isDigit)
  | s => some s

/-- Holds for a distance from universal time, or nothing. -/
def isOffset (s : List Char) : Bool :=
  match s with
  | [] => true
  | ['Z'] | ['z'] => true
  | c :: r =>
    (c = '+' || c = '-') &&
      match field 2 0 23 r with
      | some (_, ':' :: r) => (field 2 0 59 r).any (·.2.isEmpty)
      | _ => false

/-- Holds for a time of day with or without a distance from universal time. -/
def isClock (s : List Char) : Bool := (time? s).any isOffset

/-- Holds for the token of a date, a time or both. -/
def isMoment (token : List Char) : Bool :=
  match date? token with
  | some [] => true
  | some ('T' :: r) | some ('t' :: r) => isClock r
  | some _ => false
  | none => (time? token).any List.isEmpty

/-- Holds for the characters that numbers, dates and words are made of. -/
def isToken (c : Char) : Bool := isBare c || c = '+' || c = '.' || c = ':'

end IdentityStore.Toml
