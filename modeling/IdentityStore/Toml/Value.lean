/-
Documents of tables.

A document is a table of keys and values, and tables lie within each other.  How a
table came to be decides whether it may still grow: one that a header names is
finished when the next header comes, one that a dotted key made takes further
dotted keys, one that is only on the way to another may yet be named itself, and one
that is written in braces is complete.
-/

namespace IdentityStore.Toml

/-- How a table came to be. -/
inductive Origin where
  /-- A header names it. -/
  | header
  /-- It lies on the way to a table that a header names. -/
  | onTheWay
  /-- A dotted key leads through it. -/
  | dotted
  /-- It is written in braces. -/
  | braces
  deriving DecidableEq, Repr

/-- Holds for the tables that nobody has named yet. -/
def Origin.isImplied : Origin → Bool
  | .onTheWay | .dotted => true
  | .header | .braces => false

/-- Holds for the tables that dotted keys made. -/
def Origin.isDotted (o : Origin) : Bool := o = .dotted

/-- A value.  A float is kept as messages show it, and of a date or time it is only
known that there is one. -/
inductive Value where
  | text (value : String)
  | integer (value : Int)
  | float (shown : String)
  | boolean (value : Bool)
  | datetime
  | array (items : List Value)
  /-- An array to which headers add tables. -/
  | tables (items : List Value)
  | table (origin : Origin) (members : List (String × Value))
  deriving Repr

/-- The members of a table in the order of their writing. -/
abbrev Members := List (String × Value)

namespace Members

/-- Puts a value in the place of the one of its key, or at the end. -/
def put (key : String) (v : Value) : Members → Members
  | [] => [(key, v)]
  | (k, w) :: rest => if k = key then (key, v) :: rest else (k, w) :: put key v rest

/-- The members without the one of a key. -/
def without (key : String) (ms : Members) : Members := ms.filter (·.1 ≠ key)

/-- Replaces the last item of a list. -/
def replaceLast (v : Value) (items : List Value) : List Value := items.dropLast ++ [v]

/-- Changes the members of the table that a path leads to.  Tables that are missing on
the way are made, and of an array of tables the last is meant. -/
def descend (origin : Origin) (change : Bool → Members → Option Members) :
    (path : List String) → (dotted : Bool) → Members → Option Members
  | [], dotted, ms => change dotted ms
  | key :: path, _, ms =>
    match ms.lookup key with
    | none => do
      let inner ← descend origin change path origin.isDotted []
      return put key (.table origin inner) ms
    | some (.table made inner) => do
      if made = .braces then none
      else if origin.isDotted ∧ !made.isImplied then none
      else do
        let inner ← descend origin change path made.isDotted inner
        return put key (.table made inner) ms
    | some (.tables items) =>
      match items.getLast? with
      | some (.table made inner) => do
        let inner ← descend origin change path made.isDotted inner
        return put key (.tables (replaceLast (.table made inner) items)) ms
      | _ => none
    | some _ => none

/-- Adds a new key with its value. -/
def addNew (key : String) (v : Value) (ms : Members) : Option Members :=
  if (ms.lookup key).isSome then none else some (ms ++ [(key, v)])

/-- Adds the value of a key, which may be dotted.  A table that dotted keys lead to must
have been made by dotted keys. -/
def addPair (path : List String) (key : String) (v : Value) (ms : Members) : Option Members :=
  descend .dotted (fun dotted inner => if dotted = path.isEmpty then none else addNew key v inner)
    path false ms

/-- Adds pairs of dotted keys and values. -/
def addPairs (pairs : List (List String × String × Value)) (ms : Members) : Option Members :=
  pairs.foldlM (fun ms p => addPair p.1 p.2.1 p.2.2 ms) ms

/-- Adds the table that a header names, with the pairs under the header. -/
def addTable (path : List String) (key : String) (pairs : List (List String × String × Value))
    (ms : Members) : Option Members :=
  descend .onTheWay (fun _ inner =>
    match inner.lookup key with
    | none => do return inner ++ [(key, .table .header (← addPairs pairs []))]
    | some (.table .onTheWay old) => do
      return without key inner ++ [(key, .table .header (← addPairs pairs old))]
    | some _ => none) path false ms

/-- Adds one more table to the array that a header names, with the pairs under the
header. -/
def addToArray (path : List String) (key : String)
    (pairs : List (List String × String × Value)) (ms : Members) : Option Members :=
  descend .onTheWay (fun _ inner => do
    let table := Value.table .header (← addPairs pairs [])
    match inner.lookup key with
    | none => return inner ++ [(key, .tables [table])]
    | some (.tables items) => return put key (.tables (items ++ [table])) inner
    | some _ => none) path false ms

end Members

end IdentityStore.Toml
