/-
Numbers as they stand in a document, and the values they stand for.

A numeral is a sign, digits without a needless zero in front, perhaps digits
behind a point, perhaps a power of ten.  One without point and power that fits 64
bits is whole; every other is floating.
-/
import IdentityStore.Fault
import IdentityStore.Json.Byte
import IdentityStore.Json.Value

namespace IdentityStore.Json

/-- A number as it is written. -/
structure Numeral where
  negative : Bool
  /-- The digits before the point. -/
  whole : List UInt8
  /-- The digits behind the point, none if there is no point. -/
  fraction : List UInt8
  /-- The power of ten, if one is written. -/
  power : Option Int
  deriving DecidableEq, Repr

namespace Numeral

/-- The digits at the front and what follows them. -/
def digits (s : List UInt8) : List UInt8 × List UInt8 := (s.takeWhile isDigit, s.dropWhile isDigit)

/-- The natural that digits spell. -/
def natural (ds : List UInt8) : Nat := ds.foldl (fun n d => n * 10 + digitValue d) 0

/-- The power behind the letter `e`. -/
def readPower (s : List UInt8) : Except Fault (Int × List UInt8) :=
  let (negative, s) :=
    match s with
    | b :: r => if b = minus then (true, r) else if b = byte '+' then (false, r) else (false, s)
    | [] => (false, s)
  match s with
  | [] => .error .endOfValue
  | b :: _ =>
    if isDigit b then
      let (ds, rest) := digits s
      let n : Int := natural ds
      .ok (if negative then -n else n, rest)
    else .error .invalidNumber

/-- Holds for the letter in front of a power of ten. -/
def isPowerMark (b : UInt8) : Bool := b = byte 'e' || b = byte 'E'

/-- What may follow the fraction. -/
def readEnd (negative : Bool) (whole fraction s : List UInt8) :
    Except Fault (Numeral × List UInt8) :=
  match s with
  | b :: r =>
    if isPowerMark b then
      (readPower r).map fun p => (⟨negative, whole, fraction, some p.1⟩, p.2)
    else .ok (⟨negative, whole, fraction, none⟩, s)
  | [] => .ok (⟨negative, whole, fraction, none⟩, s)

/-- What may follow the digits before the point. -/
def readTail (negative : Bool) (whole s : List UInt8) : Except Fault (Numeral × List UInt8) :=
  match s with
  | b :: r =>
    if b = byte '.' then
      match digits r with
      | ([], []) => .error .endOfValue
      | ([], _ :: _) => .error .invalidNumber
      | (ds, rest) => readEnd negative whole ds rest
    else readEnd negative whole [] s
  | [] => readEnd negative whole [] s

/-- The numeral behind its sign, and what follows. -/
def read (negative : Bool) (s : List UInt8) : Except Fault (Numeral × List UInt8) :=
  match s with
  | [] => .error .endOfValue
  | b :: r =>
    if b = zero then
      match r with
      | d :: _ => if isDigit d then .error .invalidNumber else readTail negative [b] r
      | [] => readTail negative [b] r
    else if isDigit b then
      let (ds, rest) := digits s
      readTail negative ds rest
    else .error .invalidNumber

/-! ### Value -/

/-- Adds digits to a significand as long as it fits 64 bits, and counts them. -/
def gather (significand : Nat) : List UInt8 → Nat × Nat
  | [] => (significand, 0)
  | d :: r =>
    let next := significand * 10 + digitValue d
    if next ≤ 18446744073709551615 then
      let (n, count) := gather next r
      (n, count + 1)
    else (significand, 0)

/-- The value of a numeral, or a fault where it is too large.  Digits past the
sixty-four bits of the significand count as zeros. -/
def value (n : Numeral) : Except Fault Number :=
  let (front, taken) := gather 0 n.whole
  if n.fraction = [] ∧ n.power = none ∧ taken = n.whole.length ∧
      (!n.negative ∨ (0 < front ∧ front ≤ 9223372036854775808)) then
    .ok (.integer (if n.negative then -front else front))
  else
    let (significand, behind) := gather front n.fraction
    let power : Int := (n.whole.length - taken : Nat) - behind + n.power.getD 0
    match Binary64.ofDecimal? n.negative significand power with
    | some x => .ok (.float x)
    | none => .error .numberOutOfRange

end Numeral

/-- The number behind its sign, and what follows. -/
def readNumber (negative : Bool) (s : List UInt8) : Except Fault (Number × List UInt8) := do
  let (numeral, rest) ← Numeral.read negative s
  return (← numeral.value, rest)

/-! ### Passing over -/

/-- What follows a power of ten that nobody reads. -/
def skipPower (s : List UInt8) : Except Fault (List UInt8) :=
  let s :=
    match s with
    | b :: r => if b = minus || b = byte '+' then r else s
    | [] => s
  match s with
  | b :: r => if isDigit b then .ok (r.dropWhile isDigit) else .error .invalidNumber
  | [] => .error .invalidNumber

/-- What follows the digits of a number that nobody reads. -/
def skipTail (s : List UInt8) : Except Fault (List UInt8) :=
  match s with
  | [] => .ok s
  | b :: r =>
    if b = byte '.' then
      match r with
      | d :: r =>
        if isDigit d then
          match r.dropWhile isDigit with
          | e :: rest => if Numeral.isPowerMark e then skipPower rest else .ok (e :: rest)
          | [] => .ok []
        else .error .invalidNumber
      | [] => .error .invalidNumber
    else if Numeral.isPowerMark b then skipPower r
    else .ok s

/-- What follows a number, behind its sign, that nobody reads. -/
def skipNumber (s : List UInt8) : Except Fault (List UInt8) :=
  match s with
  | [] => .error .invalidNumber
  | b :: r =>
    if b = zero then
      match r with
      | d :: _ => if isDigit d then .error .invalidNumber else skipTail r
      | [] => skipTail r
    else if isDigit b then skipTail (r.dropWhile isDigit)
    else .error .invalidNumber

/-! ### Writing -/

/-- The text of a number. -/
def Number.write : Number → String
  | .integer n => toString n
  | .float x => x.render .document

/-- How a number is described where something else was wanted. -/
def Number.found : Number → Found
  | .integer n => .integer n
  | .float x => .float (x.render .document)

end IdentityStore.Json
