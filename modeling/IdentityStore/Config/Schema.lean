/-
Shapes of values that two formats can hold.

A configuration is a document of one format or the other, and both hold the same
records with the same fields.  So a record is described once, field by field, and
the description says how it is read in either format.
-/
import IdentityStore.Json.Record
import IdentityStore.Toml.Decoder

namespace IdentityStore

/-- How a kind of value is read in each format. -/
structure Shape (α : Type) where
  json : (levels : Nat) → Json.Reader α
  toml : Toml.Decoder α

namespace Shape

/-- A text. -/
def text : Shape String := ⟨fun _ => Json.text "a string", Toml.decodeText "a string"⟩

/-- A truth value. -/
def boolean : Shape Bool := ⟨fun _ => Json.boolean, Toml.decodeBoolean⟩

/-- A whole number within the bounds of a kind, kept as `of` says. -/
def natural {α : Type} (w : Width) (of : Nat → α) : Shape α where
  json _ := fun s => (Json.natural w s).map fun n => (of n.1, n.2)
  toml v := (Toml.decodeNatural w v).map of

/-- A value that may be `null` where the format has it. -/
def optional {α : Type} (shape : Shape α) : Shape (Option α) where
  json levels := Json.optional (shape.json levels)
  toml v := (shape.toml v).map some

/-- One of some known words. -/
def choice {α : Type} (known : List (String × α)) : Shape α :=
  ⟨Json.choice known, Toml.decodeChoice known⟩

end Shape

/-- A field of a record whose drafts are of type `δ`. -/
structure SchemaField (δ : Type) where
  json : Json.Field δ
  toml : Toml.Field δ

/-- A field of a shape, read by `get` and kept by `set` in drafts. -/
def SchemaField.of {δ β : Type} (name : String) (get : δ → Option β) (set : β → δ → δ)
    (shape : Shape β) : SchemaField δ where
  json := .of name get set shape.json
  toml := .of name set shape.toml

/-- A kind of record. -/
structure Schema (δ α : Type) where
  /-- The name of the record in messages. -/
  title : String
  fields : List (SchemaField δ)
  /-- What is known before anything is read. -/
  blank : δ
  /-- Fills in what may be missing and reports what may not. -/
  finish : Lack → δ → Except Fault α

namespace Schema

variable {δ α : Type} (s : Schema δ α)

/-- The record as it is read from an object. -/
def json : Json.Record δ α := ⟨s.title, s.fields.map (·.json), s.blank, s.finish⟩

/-- The record as it is decoded from a table. -/
def toml : Toml.Record δ α := ⟨s.title, s.fields.map (·.toml), s.blank, s.finish⟩

/-- A record as the value of a field. -/
def shape : Shape α := ⟨s.json.read, s.toml.decode⟩

end Schema

end IdentityStore
