/-
UTF-8 as a map between characters and bytes.

Documents arrive as bytes and names are text, so both directions are needed, and
both are written over lists: `encode` lays characters out, `decode` reads them
back and says where the first byte stands that belongs to no character.  A reader
that stops early is of no use here, because the place and the width of the fault
are part of what callers report.
-/

namespace IdentityStore.Utf8

/-! ### Writing -/

/-- A byte of a longer sequence after its first: six bits under the mark `10`. -/
def continuation (bits : Nat) : UInt8 := UInt8.ofNat (0x80 + bits % 64)

/-- The bytes of one character, the fewest that hold its code point. -/
def encodeChar (c : Char) : List UInt8 :=
  let n := c.toNat
  if n < 0x80 then [UInt8.ofNat n]
  else if n < 0x800 then [UInt8.ofNat (0xC0 + n / 64), continuation n]
  else if n < 0x10000 then
    [UInt8.ofNat (0xE0 + n / 4096), continuation (n / 64), continuation n]
  else
    [UInt8.ofNat (0xF0 + n / 262144), continuation (n / 4096), continuation (n / 64),
      continuation n]

/-- The bytes of a run of characters. -/
def encode (cs : List Char) : List UInt8 := cs.flatMap encodeChar

/-- The bytes of a text. -/
def ofString (s : String) : List UInt8 := encode s.toList

@[simp] theorem encode_nil : encode [] = [] := rfl

@[simp] theorem encode_cons (c : Char) (cs : List Char) :
    encode (c :: cs) = encodeChar c ++ encode cs := rfl

@[simp] theorem encode_append (a b : List Char) : encode (a ++ b) = encode a ++ encode b := by
  simp [encode]

/-! ### Reading -/

/-- Where bytes stop being text: the first byte that starts no character, and how
many bytes are certainly wrong there, or none when the bytes merely end too soon. -/
structure Flaw where
  index : Nat
  width : Option Nat
  deriving DecidableEq, Repr

namespace Flaw

/-- What is said of the flaw. -/
def message (f : Flaw) : String :=
  match f.width with
  | some w => s!"invalid utf-8 sequence of {w} bytes from index {f.index}"
  | none => s!"incomplete utf-8 byte sequence from index {f.index}"

end Flaw

/-- Holds for the bytes that may follow within a sequence. -/
def isContinuation (b : UInt8) : Bool := 0x80 ≤ b && b ≤ 0xBF

/-- The second byte of three: the bounds keep out overlong forms and surrogates. -/
def isSecondOfThree (a b : UInt8) : Bool :=
  if a = 0xE0 then 0xA0 ≤ b && b ≤ 0xBF
  else if a = 0xED then 0x80 ≤ b && b ≤ 0x9F
  else isContinuation b

/-- The second byte of four: the bounds keep out overlong forms and what lies
beyond the last code point. -/
def isSecondOfFour (a b : UInt8) : Bool :=
  if a = 0xF0 then 0x90 ≤ b && b ≤ 0xBF
  else if a = 0xF4 then 0x80 ≤ b && b ≤ 0x8F
  else isContinuation b

/-- The six bits that a continuation byte carries. -/
def payload (b : UInt8) : Nat := b.toNat % 64

private def keep (c : Nat) (rest : Except Flaw (List Char)) : Except Flaw (List Char) :=
  rest.map (Char.ofNat c :: ·)

/-- The characters of a run of bytes that starts at place `index` of its document. -/
def decodeFrom (index : Nat) : List UInt8 → Except Flaw (List Char)
  | [] => .ok []
  | a :: r =>
    if a < 0x80 then keep a.toNat (decodeFrom (index + 1) r)
    else if 0xC2 ≤ a && a ≤ 0xDF then
      match r with
      | [] => .error ⟨index, none⟩
      | b :: r =>
        if isContinuation b then
          keep (a.toNat % 32 * 64 + payload b) (decodeFrom (index + 2) r)
        else .error ⟨index, some 1⟩
    else if 0xE0 ≤ a && a ≤ 0xEF then
      match r with
      | [] => .error ⟨index, none⟩
      | b :: r =>
        if isSecondOfThree a b then
          match r with
          | [] => .error ⟨index, none⟩
          | c :: r =>
            if isContinuation c then
              keep (a.toNat % 16 * 4096 + payload b * 64 + payload c) (decodeFrom (index + 3) r)
            else .error ⟨index, some 2⟩
        else .error ⟨index, some 1⟩
    else if 0xF0 ≤ a && a ≤ 0xF4 then
      match r with
      | [] => .error ⟨index, none⟩
      | b :: r =>
        if isSecondOfFour a b then
          match r with
          | [] => .error ⟨index, none⟩
          | c :: r =>
            if isContinuation c then
              match r with
              | [] => .error ⟨index, none⟩
              | d :: r =>
                if isContinuation d then
                  keep (a.toNat % 8 * 262144 + payload b * 4096 + payload c * 64 + payload d)
                    (decodeFrom (index + 4) r)
                else .error ⟨index, some 3⟩
            else .error ⟨index, some 2⟩
        else .error ⟨index, some 1⟩
    else .error ⟨index, some 1⟩

/-- The text that bytes spell, or the first place where they spell none. -/
def decode (bytes : List UInt8) : Except Flaw String :=
  (decodeFrom 0 bytes).map String.ofList

end IdentityStore.Utf8
