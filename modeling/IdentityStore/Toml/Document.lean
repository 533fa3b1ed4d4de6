/-
Reading documents of tables.

A document is a run of lines: pairs of a key and a value, and headers that say which
table the pairs below belong to.  Lists may run over several lines, tables in braces
may not.
-/
import IdentityStore.Toml.Lexeme
import IdentityStore.Toml.Value

namespace IdentityStore.Toml

/-- How many lists and tables in braces may lie within each other. -/
def maxLevels : Nat := 79

/-- A value that is one token: a word, a number or a date. -/
def tokenValue : Scan Value := fun s =>
  let token := s.takeWhile isToken
  let rest := s.dropWhile isToken
  if token = [] then none
  else if token = "true".toList then some (.boolean true, rest)
  else if token = "false".toList then some (.boolean false, rest)
  else if isMoment token then
    match date? token, rest with
    | some [], ' ' :: c :: r =>
      if isDigit c then
        if isClock ((c :: r).takeWhile isToken) then
          some (.datetime, (c :: r).dropWhile isToken)
        else none
      else some (.datetime, rest)
    | _, _ => some (.datetime, rest)
  else
    match integer? token with
    | some n => some (.integer n, rest)
    | none => (float? token).map fun x => (.float x, rest)

/-- The items of a list up to its closing bracket, parted by commas, of which one may
stand at the end. -/
def listItems (read : Scan Value) : (turns : Nat) → Scan (List Value)
  | 0, _ => none
  | turns + 1, s =>
    match skipLines (s.length + 1) s with
    | ']' :: r => some ([], r)
    | s => do
      let (v, r) ← read s
      match skipLines (r.length + 1) r with
      | ',' :: r => (listItems read turns r).map fun vs => (v :: vs.1, vs.2)
      | ']' :: r => some ([v], r)
      | _ => none

/-- A key, an equals sign and a value. -/
def pair (read : Scan Value) : Scan (List String × String × Value) := fun s => do
  let ((path, name), r) ← key s
  let r ← expect '=' (skipBlank r)
  let (v, r) ← read (skipBlank r)
  return ((path, name, v), r)

/-- The pairs of a table in braces, parted by commas. -/
def bracePairs (read : Scan Value) : (turns : Nat) → Scan (List (List String × String × Value))
  | 0, _ => none
  | turns + 1, s => do
    let (p, r) ← pair read s
    match skipBlank r with
    | ',' :: r => (bracePairs read turns r).map fun ps => (p :: ps.1, ps.2)
    | '\x7d' :: r => some ([p], r)
    | _ => none

/-- A table in braces, behind the opening one. -/
def braceTable (read : Scan Value) : Scan Value := fun s =>
  match skipBlank s with
  | '\x7d' :: r => some (.table .braces [], r)
  | s => do
    let (pairs, r) ← bracePairs read (s.length + 1) s
    return (.table .braces (← Members.addPairs pairs []), r)

/-- A value. -/
def value : (levels : Nat) → Scan Value
  | levels, s =>
    match s with
    | '[' :: r =>
      match levels with
      | 0 => none
      | inner + 1 => (listItems (value inner) (r.length + 1) r).map fun vs => (.array vs.1, vs.2)
    | '\x7b' :: r =>
      match levels with
      | 0 => none
      | inner + 1 => braceTable (value inner) r
    | s =>
      match text false s with
      | some (t, r) => some (.text t, r)
      | none => tokenValue s

/-! ### Lines -/

/-- What a header names. -/
inductive Header where
  /-- The pairs above every header belong to the document itself. -/
  | none
  | table (path : List String) (name : String)
  | array (path : List String) (name : String)

/-- A header with the pairs below it. -/
structure Section where
  header : Header
  pairs : List (List String × String × Value)

/-- The header that begins here, if one does, and what follows its line. -/
def header? : List Char → Option (Option Header × List Char)
  | '[' :: '[' :: r => do
    let ((path, name), r) ← key r
    let r ← expect ']' (← expect ']' (skipBlank r))
    return (some (.array path name), ← endLine? r)
  | '[' :: r => do
    let ((path, name), r) ← key r
    let r ← expect ']' (skipBlank r)
    return (some (.table path name), ← endLine? r)
  | s => some (none, s)

/-- The sections of a document from a header on, whose pairs so far are `pairs`, the
latest first. -/
def sections (header : Header) (pairs : List (List String × String × Value)) :
    (turns : Nat) → List Char → Option (List Section)
  | 0, _ => none
  | turns + 1, s => do
    match skipLines (s.length + 1) s with
    | [] => return [⟨header, pairs.reverse⟩]
    | s =>
      match ← header? s with
      | (some next, r) => return ⟨header, pairs.reverse⟩ :: (← sections next [] turns r)
      | (none, s) =>
        let (p, r) ← pair (value maxLevels) s
        sections header (p :: pairs) turns (← endLine? r)

/-- Adds a section to a document. -/
def Section.addTo (ms : Members) (s : Section) : Option Members :=
  match s.header with
  | .none => Members.addPairs s.pairs ms
  | .table path name => Members.addTable path name s.pairs ms
  | .array path name => Members.addToArray path name s.pairs ms

/-- The table that a text describes, if it describes one. -/
def read (document : String) : Option Value := do
  let cs := document.toList
  let cs := match cs with
    | '\ufeff' :: r => r
    | cs => cs
  let all ← sections .none [] (cs.length + 1) cs
  return .table .header (← all.foldlM Section.addTo [])

end IdentityStore.Toml
