/-
Configurations are read back.

A configuration is written with every field, and whatever it says, the fields are read back: a
text that is missing is written as `null` and not left out, and the numbers are within the bounds
that their fields are read with.
-/
import IdentityStore.Config.Document
import IdentityStore.Proofs.Principal

namespace IdentityStore

open Json (Reads reads_field reads_text)

/-! ### Kinds of values -/

namespace Shape

theorem reads_text (levels : Nat) (s : String) :
    Reads (text.json levels) (Json.writeText s) s :=
  Json.reads_text _ s

theorem reads_optionalText (levels : Nat) (o : Option String) :
    Reads ((optional text).json levels) (Json.writeOption Json.writeText o) o :=
  Json.reads_writeOption fun s _ => ⟨Json.reads_text _ s, Json.head_writeText_ne s⟩

theorem reads_boolean (levels : Nat) (b : Bool) :
    Reads (boolean.json levels) (Json.writeBoolean b) b :=
  Json.reads_boolean b

theorem reads_natural {α : Type} {w : Width} {of : Nat → α} {a : α} (levels : Nat) (n : Nat)
    (hw : w.least ≤ n ∧ (n : Int) ≤ w.most) (hn : Json.FitsWord n) (hof : of n = a) :
    Reads ((natural w of).json levels) (toString n) a := by
  rw [← hof]
  exact (Json.reads_natural hw hn).map of

theorem reads_uint8 (levels : Nat) (n : UInt8) :
    Reads ((natural .u8 UInt8.ofNat).json levels) (toString n) n := by
  have hn := n.toNat_lt
  exact reads_natural levels n.toNat ⟨by simp [Width.u8], by simp [Width.u8]; omega⟩
    ⟨by omega, by omega⟩ (by simp)

theorem reads_uint64 (levels : Nat) (w : Width) (hw : w.least = 0 ∧ w.most = 18446744073709551615)
    (n : UInt64) : Reads ((natural w UInt64.ofNat).json levels) (toString n) n := by
  have hn := n.toNat_lt
  exact reads_natural levels n.toNat ⟨by omega, by omega⟩ ⟨by omega, by omega⟩ (by simp)

end Shape

/-- One more member of a record that is read back by its schema. -/
theorem Schema.step {δ α β : Type} {s : Schema δ α} {levels : Nat} {name w : String}
    {get : δ → Option β} {set : β → δ → δ} {shape : Shape β} {b : β} {d d' : δ}
    {ms : List (String × String)} (hread : Reads (shape.json levels) w b)
    (hfind : s.fields.find? (·.json.answersTo name) = some (.of name get set shape))
    (hgiven : (get d).isSome = false)
    (hmore : Json.Steps (s.json.readMember levels) (set b d) ms d') :
    Json.Steps (s.json.readMember levels) d ((name, w) :: ms) d' := by
  have hfield : Reads ((Json.Field.of name get set shape.json).read levels d) w (set b d) :=
    reads_field shape.json hread d
  refine Json.Record.step hfield ?_ hgiven hmore
  show (s.fields.map (·.json)).find? (·.answersTo name) = _
  rw [List.find?_map, show ((·.answersTo name) ∘ fun f : SchemaField δ => f.json) =
    (·.json.answersTo name) from rfl, hfind]
  rfl

/-! ### The parts of a configuration -/

theorem Credentials.reads_write (levels : Nat) (c : Credentials) :
    Reads (schema.shape.json (levels + 1)) c.write c :=
  schema.json.reads_writeObject
    (Schema.step (Shape.reads_optionalText levels c.username) rfl rfl
      (Schema.step (Shape.reads_optionalText levels c.password) rfl rfl (.nil _)))
    rfl

theorem SourceOptions.reads_write (levels : Nat) (o : SourceOptions) :
    Reads (schema.shape.json (levels + 1)) o.write o :=
  schema.json.reads_writeObject
    (Schema.step (Shape.reads_optionalText levels o.namespaceName) rfl rfl
      (Schema.step (Shape.reads_uint8 levels o.database) rfl rfl
        (Schema.step (Shape.reads_boolean levels o.tls) rfl rfl
          (Schema.step (Shape.reads_uint64 levels .usize ⟨rfl, rfl⟩ o.poolSize) rfl rfl
            (Schema.step (Shape.reads_uint64 levels .u64 ⟨rfl, rfl⟩ o.connectTimeout) rfl rfl
              (Schema.step (Shape.reads_uint64 levels .u64 ⟨rfl, rfl⟩ o.commandTimeout) rfl rfl
                (.nil _)))))))
    rfl

theorem SourceKind.reads_write (levels : Nat) (k : SourceKind) :
    Reads ((Shape.choice SourceKind.words).json levels) k.write k := by
  cases k
  · exact Json.reads_choice levels "file" rfl
  · exact Json.reads_choice levels "redis" rfl
  · exact Json.reads_choice levels "memory" rfl

theorem DataSource.reads_write (levels : Nat) (d : DataSource) :
    Reads (schema.shape.json (levels + 2)) d.write d := by
  have hcredentials : Reads ((Shape.optional Credentials.schema.shape).json (levels + 1))
      (Json.writeOption Credentials.write d.credentials) d.credentials := by
    refine Json.reads_writeOption fun c _ => ⟨Credentials.reads_write levels c, ?_⟩
    rw [Credentials.write, ← List.append_nil (Utf8.ofString _), Json.ofString_writeObject]
    exact fun hn => absurd (Option.some.inj hn) (by decide)
  exact schema.json.reads_writeObject
    (Schema.step (SourceKind.reads_write _ d.kind) rfl rfl
      (Schema.step (Shape.reads_text _ d.source) rfl rfl
        (Schema.step hcredentials rfl rfl
          (Schema.step (SourceOptions.reads_write levels d.options) rfl rfl (.nil _)))))
    rfl

theorem Logging.reads_write (levels : Nat) (l : Logging) :
    Reads (schema.shape.json (levels + 1)) l.write l :=
  schema.json.reads_writeObject (Schema.step (Shape.reads_text levels l.level) rfl rfl (.nil _)) rfl

/-- **Every configuration is read back.** -/
theorem Config.ofJson_write (c : Config) : ofJson c.write = .ok c := by
  have hread : Reads (schema.json.read Json.maxLevels) c.write c :=
    schema.json.reads_writeObject
      (Schema.step (DataSource.reads_write 124 c.dataSource) rfl rfl
        (Schema.step (Logging.reads_write 125 c.logging) rfl rfl (.nil _)))
      rfl
  exact hread.readDocument

end IdentityStore
