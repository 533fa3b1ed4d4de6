/-
What the values of a document stand for.

The text has been read to its end before anything is decoded.  Then the first value
that is not what its place wants is the answer, in the words that documents of every
format share; but a choice that is not written as a choice is refused without
words of its own, like a text that is no document at all.
-/
import IdentityStore.Toml.Value
import IdentityStore.Width

namespace IdentityStore.Toml

/-- Why a text is no document of the wanted shape. -/
inductive Refusal where
  /-- The text is no document, or a choice is not written as one. -/
  | malformed
  /-- A value is not what its place wants. -/
  | unfit (fault : Fault)
  deriving DecidableEq, Repr

/-- What is said of the refusal. -/
def Refusal.message : Refusal → String
  | .malformed => "TOML syntax"
  | .unfit fault => fault.message

/-- Yields what a value stands for. -/
abbrev Decoder (α : Type) := Value → Except Refusal α

/-- How a value is described where another was wanted.  A date or time passes for a
table. -/
def Value.found : Value → Found
  | .text s => .text s
  | .integer n => .integer n
  | .float shown => .float shown
  | .boolean b => .boolean b
  | .array _ | .tables _ => .sequence
  | .datetime | .table .. => .map

/-- The refusal of a value that is not what was wanted. -/
def mismatch (expected : String) (v : Value) : Refusal := .unfit (.wrongKind v.found expected)

/-! ### Single values -/

/-- Decodes a text; `expected` says what the text is to be. -/
def decodeText (expected : String) : Decoder String
  | .text s => .ok s
  | v => .error (mismatch expected v)

/-- Decodes a truth value. -/
def decodeBoolean : Decoder Bool
  | .boolean b => .ok b
  | v => .error (mismatch "a boolean" v)

/-- Decodes a whole number of a kind that has no negative ones. -/
def decodeNatural (w : Width) : Decoder Nat
  | .integer n => ((w.fit n).mapError .unfit).map Int.toNat
  | v => .error (mismatch w.name v)

/-- Holds for what may stand behind a word of a choice: a table or list of nothing. -/
def Value.isNothing : Value → Bool
  | .array items | .tables items => items.isEmpty
  | .table _ members => members.isEmpty
  | _ => false

/-- Decodes one word of a choice: a text, or a table whose only member has the word as
its name and nothing behind it. -/
def decodeChoice {α : Type} (known : List (String × α)) : Decoder α := fun v =>
  let pick (word : String) : Except Refusal α :=
    match known.lookup word with
    | some a => .ok a
    | none => .error (.unfit (.unknownVariant word (known.map (·.1))))
  match v with
  | .text word => pick word
  | .table _ [(word, v)] => do
    let a ← pick word
    if v.isNothing then return a else throw .malformed
  | _ => .error .malformed

/-! ### Records -/

/-- A field of a record whose drafts are of type `δ`. -/
structure Field (δ : Type) where
  name : String
  /-- Decodes the field into a draft. -/
  decode : δ → Decoder δ

/-- A field that is decoded by `decode` and kept by `set`. -/
def Field.of {δ β : Type} (name : String) (set : β → δ → δ) (decode : Decoder β) : Field δ where
  name := name
  decode d v := (decode v).map (set · d)

/-- A kind of record: how its drafts are decoded and what comes of them. -/
structure Record (δ α : Type) where
  /-- The name of the record in messages. -/
  title : String
  fields : List (Field δ)
  /-- What is known before anything is decoded. -/
  blank : δ
  /-- Fills in what may be missing and reports what may not. -/
  finish : Lack → δ → Except Fault α

namespace Record

variable {δ α : Type} (r : Record δ α)

/-- Decodes one member of a table into the draft; unknown names are passed over. -/
def decodeMember (d : δ) (member : String × Value) : Except Refusal δ :=
  match r.fields.find? (·.name = member.1) with
  | some f => f.decode d member.2
  | none => .ok d

/-- Decodes the items of a list into the draft, field by field; items beyond the last
field are passed over. -/
def decodeItems (items : List Value) : Except Refusal δ :=
  (r.fields.zip items).foldlM (fun d p => p.1.decode d p.2) r.blank

/-- Decodes a record that is written as a table or as a list. -/
def decode : Decoder α := fun v =>
  let finish (lack : Lack) (d : δ) : Except Refusal α := (r.finish lack d).mapError .unfit
  let lackOfMember : Lack := fun _ name => .missingField name
  let lackOfItem : Lack := fun index _ => .wrongLength index r.title r.fields.length
  match v with
  | .table _ members => do finish lackOfMember (← members.foldlM r.decodeMember r.blank)
  | .datetime => finish lackOfMember r.blank
  | .array items | .tables items => do finish lackOfItem (← r.decodeItems items)
  | v => .error (mismatch s!"struct {r.title}" v)

end Record

end IdentityStore.Toml
