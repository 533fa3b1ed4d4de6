/-
Reading values of a wanted kind.

A reader takes the bytes in front of it and yields a value and the bytes behind
it, or the first problem it meets.  Blanks in front of a value belong to the value.
Readers of parts make readers of wholes, and `levels` counts how many more lists
and objects may still open within each other.
-/
import IdentityStore.Json.Skip
import IdentityStore.Width

namespace IdentityStore.Json

/-- Yields a value and the bytes behind it, or the first problem. -/
abbrev Reader (α : Type) := List UInt8 → Except Fault (α × List UInt8)

/-- How many lists and objects may lie within each other. -/
def maxLevels : Nat := 127

/-- Reads a whole document: nothing but blanks may follow the value. -/
def readDocument {α : Type} (read : Reader α) (bytes : List UInt8) : Except Fault α := do
  let (a, rest) ← read bytes
  if skipBlank rest = [] then return a else throw .trailingCharacters

/-- The problem of a value that is not what was wanted.  A number, a text or a word
is read to its end first, and may have a problem of its own. -/
def mismatch (expected : String) (s : List UInt8) : Fault :=
  let wrong (found : Found) : Fault := .wrongKind found expected
  let after {β : Type} (r : Except Fault β) (found : β → Found) : Fault :=
    match r with
    | .ok b => wrong (found b)
    | .error f => f
  match skipBlank s with
  | [] => .endOfValue
  | b :: r =>
    if b = byte 'n' then after (readWord "ull".toList r) fun _ => .null
    else if b = byte 't' then after (readWord "rue".toList r) fun _ => .boolean true
    else if b = byte 'f' then after (readWord "alse".toList r) fun _ => .boolean false
    else if b = minus then after (readNumber true r) fun n => n.1.found
    else if isDigit b then after (readNumber false (b :: r)) fun n => n.1.found
    else if b = quotationMark then after (readText r) fun t => .text t.1
    else if b = openBracket then wrong .sequence
    else if b = openBrace then wrong .map
    else .expectedValue

/-! ### Single values -/

/-- Reads a text; `expected` says what the text is to be. -/
def text (expected : String) : Reader String := fun s =>
  match skipBlank s with
  | b :: r => if b = quotationMark then readText r else .error (mismatch expected s)
  | [] => .error .endOfValue

/-- Reads a truth value. -/
def boolean : Reader Bool := fun s =>
  match skipBlank s with
  | b :: r =>
    if b = byte 't' then (readWord "rue".toList r).map (true, ·)
    else if b = byte 'f' then (readWord "alse".toList r).map (false, ·)
    else .error (mismatch "a boolean" s)
  | [] => .error .endOfValue

/-- Reads a whole number of a kind. -/
def integer (w : Width) : Reader Int := fun s =>
  let fit (negative : Bool) (s : List UInt8) : Except Fault (Int × List UInt8) := do
    let (n, rest) ← readNumber negative s
    match n with
    | .integer n => return (← w.fit n, rest)
    | .float _ => throw (.wrongKind n.found w.name)
  match skipBlank s with
  | b :: r =>
    if b = minus then fit true r
    else if isDigit b then fit false (b :: r)
    else .error (mismatch w.name s)
  | [] => .error .endOfValue

/-- Reads a whole number of a kind that has no negative ones. -/
def natural (w : Width) : Reader Nat := fun s => (integer w s).map fun n => (n.1.toNat, n.2)

/-- Reads a value that may be `null`. -/
def optional {α : Type} (read : Reader α) : Reader (Option α) := fun s =>
  match skipBlank s with
  | b :: r =>
    if b = byte 'n' then (readWord "ull".toList r).map (none, ·)
    else (read s).map fun a => (some a.1, a.2)
  | [] => .error .endOfValue

/-- Reads the spelling of an identifier. -/
def uuid : Reader Uuid := fun s => do
  let (t, rest) ← text "a formatted UUID string" s
  match Uuid.read t with
  | .ok id => return (id, rest)
  | .error flaw => throw (.badUuid flaw)

/-! ### Lists and objects -/

/-- Where the next item of a list begins, or nothing at its closing bracket. -/
def nextItem? (first : Bool) (s : List UInt8) : Except Fault (Option (List UInt8)) :=
  match skipBlank s with
  | [] => .error .endOfList
  | b :: r =>
    if b = closeBracket then .ok none
    else if first then .ok (some (b :: r))
    else if b = comma then
      match skipBlank r with
      | [] => .error .endOfValue
      | c :: r => if c = closeBracket then .error .trailingComma else .ok (some (c :: r))
    else .error .expectedListCommaOrEnd

/-- What follows a list of which all wanted items have been read. -/
def endList (s : List UInt8) : Except Fault (List UInt8) :=
  match skipBlank s with
  | [] => .error .endOfList
  | b :: r =>
    if b = closeBracket then .ok r
    else if b = comma then
      match skipBlank r with
      | c :: _ => .error (if c = closeBracket then .trailingComma else .trailingCharacters)
      | [] => .error .trailingCharacters
    else .error .trailingCharacters

/-- Reads items up to the closing bracket.  Each item takes a byte, so `turns` above
the number of bytes is never used up. -/
def items {α : Type} (read : Reader α) : (turns : Nat) → (first : Bool) → Reader (List α)
  | 0, _, _ => .error .endOfList
  | turns + 1, first, s => do
    match ← nextItem? first s with
    | none => return ([], ← endList s)
    | some s =>
      let (a, s) ← read s
      let (as, s) ← items read turns false s
      return (a :: as, s)

/-- Reads a list behind its opening bracket. -/
def itemsOf {α : Type} (read : Reader α) : Reader (List α) := fun s =>
  items read (s.length + 1) true s

/-- Reads a list; `read` is given the levels left within it. -/
def list {α : Type} (read : Nat → Reader α) (levels : Nat) : Reader (List α) := fun s =>
  match skipBlank s with
  | b :: r =>
    if b = openBracket then
      match levels with
      | 0 => .error .nesting
      | inner + 1 => itemsOf (read inner) r
    else .error (mismatch "a sequence" s)
  | [] => .error .endOfValue

/-- What follows the colon between a name and its value. -/
def readColon (s : List UInt8) : Except Fault (List UInt8) :=
  match skipBlank s with
  | [] => .error .endOfObject
  | b :: r => if b = colon then .ok r else .error .expectedColon

/-- Where the next member of an object begins, behind the quotation mark of its name,
or nothing and the rest at the closing brace. -/
def nextMember? (first : Bool) (s : List UInt8) :
    Except Fault (Option (List UInt8) × List UInt8) :=
  match skipBlank s with
  | [] => .error .endOfObject
  | b :: r =>
    if b = closeBrace then .ok (none, r)
    else if first then
      if b = quotationMark then .ok (some r, r) else .error .keyMustBeString
    else if b = comma then
      match skipBlank r with
      | [] => .error .endOfValue
      | c :: r =>
        if c = quotationMark then .ok (some r, r)
        else if c = closeBrace then .error .trailingComma
        else .error .keyMustBeString
    else .error .expectedObjectCommaOrEnd

/-- Reads members up to the closing brace.  `read` gets a name, what has been read so
far, and the bytes behind the name, the colon included. -/
def members {δ : Type} (read : String → δ → Reader δ) : (turns : Nat) → (first : Bool) → δ → Reader δ
  | 0, _, _, _ => .error .endOfObject
  | turns + 1, first, d, s => do
    match ← nextMember? first s with
    | (none, rest) => return (d, rest)
    | (some s, _) =>
      let (name, s) ← readText s
      let (d, s) ← read name d s
      members read turns false d s

/-- Reads an object behind its opening brace, starting from `d`. -/
def membersOf {δ : Type} (read : String → δ → Reader δ) (d : δ) : Reader δ := fun s =>
  members read (s.length + 1) true d s

/-! ### Any value -/

/-- Reads a document of any shape.  Of two members of one name the later counts. -/
def value : (levels : Nat) → Reader Value
  | levels, s =>
    match skipBlank s with
    | [] => .error .endOfValue
    | b :: r =>
      if b = byte 'n' then (readWord "ull".toList r).map (.null, ·)
      else if b = byte 't' then (readWord "rue".toList r).map (.boolean true, ·)
      else if b = byte 'f' then (readWord "alse".toList r).map (.boolean false, ·)
      else if b = minus then (readNumber true r).map fun n => (.number n.1, n.2)
      else if isDigit b then (readNumber false (b :: r)).map fun n => (.number n.1, n.2)
      else if b = quotationMark then (readText r).map fun t => (.text t.1, t.2)
      else if b = openBracket then
        match levels with
        | 0 => .error .nesting
        | inner + 1 => (itemsOf (value inner) r).map fun a => (.array a.1, a.2)
      else if b = openBrace then
        match levels with
        | 0 => .error .nesting
        | inner + 1 =>
          let member (name : String) (ms : List (String × Value)) :
              Reader (List (String × Value)) := fun s => do
            let (v, s) ← value inner (← readColon s)
            return (insertMember name v ms, s)
          (membersOf member [] r).map fun m => (.object m.1, m.2)
      else .error .expectedValue

/-! ### Choices -/

/-- Reads the name of the only member of an object, behind the opening brace. -/
def variantName : Reader String := fun s =>
  match skipBlank s with
  | [] => .error .endOfObject
  | b :: r =>
    if b = quotationMark then readText r
    else if b = closeBrace then .error .expectedValue
    else .error .keyMustBeString

/-- Reads one word of a choice: the word as a text, or an object whose only member has
the word as its name and `null` as its value. -/
def choice {α : Type} (known : List (String × α)) (levels : Nat) : Reader α := fun s =>
  let pick (word : String) : Except Fault α :=
    match known.lookup word with
    | some a => .ok a
    | none => .error (.unknownVariant word (known.map (·.1)))
  match skipBlank s with
  | [] => .error .endOfValue
  | b :: r =>
    if b = quotationMark then do
      let (word, r) ← readText r
      return (← pick word, r)
    else if b = openBrace then
      match levels with
      | 0 => .error .nesting
      | _ + 1 => do
        let (word, r) ← variantName r
        let a ← pick word
        let r ← readColon r
        let r ←
          match skipBlank r with
          | [] => throw .endOfValue
          | b :: rest =>
            if b = byte 'n' then readWord "ull".toList rest else throw (mismatch "unit" r)
        match skipBlank r with
        | [] => throw .endOfObject
        | b :: r => if b = closeBrace then return (a, r) else throw .expectedValue
    else .error .expectedValue

end IdentityStore.Json
