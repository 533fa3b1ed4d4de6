/-
Universally unique identifiers.

An identifier is its thirty-two hexadecimal digits.  It is written in five groups
of 8, 4, 4, 4 and 12 lower-case digits, and read from four spellings: those
groups, the groups in braces, the groups behind `urn:uuid:`, and the digits alone.

Reading goes from the length to the characters to the groups, and the first check
that fails is the one reported.  When the length is that of a grouped spelling,
only the thirty-six bytes that should be the groups are looked at, and groups they
have to be; otherwise all of the text is looked at, less the braces or the label it
may have.
-/
import IdentityStore.Text.Utf8

namespace IdentityStore

/-- An identifier, as its hexadecimal digits from the first to the last. -/
structure Uuid where
  digits : List (Fin 16)
  length_digits : digits.length = 32
  deriving DecidableEq

namespace Uuid

/-- The identifier of nothing: every digit is zero. -/
def nil : Uuid := ⟨List.replicate 32 0, List.length_replicate⟩

/-- Holds for the identifier of nothing. -/
def isNil (u : Uuid) : Bool := u = nil

/-! ### Writing -/

/-- A hexadecimal digit in lower case. -/
def digitChar (d : Fin 16) : Char := Nat.digitChar d

/-- The digits in their five groups. -/
def groups (u : Uuid) : List (List Char) :=
  let cs := u.digits.map digitChar
  [cs.take 8, (cs.drop 8).take 4, (cs.drop 12).take 4, (cs.drop 16).take 4, cs.drop 20]

/-- The groups with a hyphen between any two. -/
def render (u : Uuid) : String := String.ofList (List.intercalate ['-'] u.groups)

instance : ToString Uuid := ⟨render⟩

/-! ### Reading -/

/-- Why a text is no identifier. -/
inductive Flaw where
  /-- The text is empty, too long, or has no groups and not thirty-two digits. -/
  | length (found : Nat)
  /-- A character stands at a byte where only digits and hyphens may. -/
  | character (found : Char) (index : Nat)
  /-- The hyphens part the text into too many or too few groups. -/
  | groupCount (found : Nat)
  /-- A group, counted from zero, has the wrong number of digits. -/
  | groupLength (group expected found : Nat)
  deriving DecidableEq, Repr

/-- What is said of the flaw. -/
def Flaw.message : Flaw → String
  | .length n => s!"invalid length: found {n}"
  | .character c i => s!"invalid character: found `{c}` at {i}"
  | .groupCount n => s!"invalid group count: expected 5, found {n}"
  | .groupLength g e n => s!"invalid group length in group {g}: expected {e}, found {n}"

/-- The value of a hexadecimal digit in either case. -/
def digit? (c : Char) : Option (Fin 16) :=
  let n := c.toNat
  if 0x30 ≤ n ∧ n ≤ 0x39 then some (Fin.ofNat 16 (n - 0x30))
  else if 0x61 ≤ n ∧ n ≤ 0x66 then some (Fin.ofNat 16 (n - 0x61 + 10))
  else if 0x41 ≤ n ∧ n ≤ 0x46 then some (Fin.ofNat 16 (n - 0x41 + 10))
  else none

/-- The label of the spelling as a uniform resource name. -/
def label : List Char := "urn:uuid:".toList

/-- Takes the label off, whatever the case of its letters. -/
def dropLabel? (cs : List Char) : Option (List Char) :=
  if (cs.take label.length).map Char.toLower = label then some (cs.drop label.length) else none

/-- Takes a pair of braces off. -/
def dropBraces? : List Char → Option (List Char)
  | [] => none
  | c :: r =>
    if c = '\x7b' ∧ r.getLast? = some '\x7d' then some r.dropLast else none

/-- The part of a text that has to be digits and hyphens. -/
structure Body where
  chars : List Char
  /-- How many bytes of the text stand before the part. -/
  offset : Nat
  /-- How many bytes the length of the last group is counted from. -/
  size : Nat
  /-- Whether the part may be thirty-two digits without a hyphen. -/
  plain : Bool

/-- The part of a text of `size` bytes that has to be digits and hyphens. -/
def body (cs : List Char) (size : Nat) : Body :=
  let loose : Body :=
    match dropBraces? cs with
    | some inner => ⟨inner, 1, size, false⟩
    | none =>
      match dropLabel? cs with
      | some rest => ⟨rest, label.length, size, false⟩
      | none => ⟨cs, 0, size, true⟩
  if size = 36 then ⟨cs, 0, 36, false⟩
  else if size = 38 then
    match dropBraces? cs with
    | some inner => ⟨inner, 0, 36, false⟩
    | none => loose
  else if size = 45 then
    match dropLabel? cs with
    | some rest => ⟨rest, 0, 36, false⟩
    | none => loose
  else loose

/-- Reads digits, passing over hyphens; `index` is the byte of the first character. -/
def readDigits (index : Nat) : List Char → Except Flaw (List (Fin 16))
  | [] => .ok []
  | c :: r =>
    if c = '-' then readDigits (index + 1) r
    else
      match digit? c with
      | some d => (readDigits (index + 1) r).map (d :: ·)
      | none => .error (.character c index)

/-- The places of the hyphens, the first character being at `place`. -/
def hyphens (place : Nat) : List Char → List Nat
  | [] => []
  | c :: r => if c = '-' then place :: hyphens (place + 1) r else hyphens (place + 1) r

/-- The first group whose hyphen is not where its length puts it. -/
def misplaced? : (group start : Nat) → (lengths places : List Nat) → Option Flaw
  | g, start, e :: es, h :: hs =>
    if h = start + e then misplaced? (g + 1) (h + 1) es hs
    else some (.groupLength g e (h - start))
  | _, _, _, _ => none

/-- The identifier that a text spells. -/
def read (s : String) : Except Flaw Uuid := do
  let size := (Utf8.ofString s).length
  if size = 0 ∨ 45 < size then throw (.length size)
  let b := body s.toList size
  let digits ← readDigits b.offset b.chars
  let places := hyphens 0 b.chars
  if b.plain ∧ places = [] then
    if h : digits.length = 32 then return ⟨digits, h⟩ else throw (.length size)
  if places.length ≠ 4 then throw (.groupCount (places.length + 1))
  if let some flaw := misplaced? 0 0 [8, 4, 4, 4] places then throw flaw
  if h : digits.length = 32 ∧ b.size = 36 then return ⟨digits, h.1⟩
  throw (.groupLength 4 12 (b.size - 24))

end Uuid

end IdentityStore
