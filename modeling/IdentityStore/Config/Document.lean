/-
Configurations as documents.

A configuration is read from either of two formats, and what is missing has a
default, except where the records are kept.  It is written in one format only, with
every field.
-/
import IdentityStore.Config.Basic
import IdentityStore.Config.Schema
import IdentityStore.Json.Writer
import IdentityStore.Toml.Document

namespace IdentityStore

namespace SourceKind

/-- The words for the kinds. -/
def words : List (String × SourceKind) :=
  [("file", .file), ("redis", .redis), ("memory", .memory)]

/-- The written form of a kind. -/
def write : SourceKind → String
  | .file => Json.writeText "file"
  | .redis => Json.writeText "redis"
  | .memory => Json.writeText "memory"

end SourceKind

/-! ### Drafts -/

/-- What is known of credentials while they are read. -/
structure Credentials.Draft where
  username : Option (Option String) := none
  password : Option (Option String) := none

/-- The credentials that a draft comes to. -/
def Credentials.Draft.finish (_ : Lack) (d : Draft) : Except Fault Credentials :=
  .ok { username := d.username.getD none, password := d.password.getD none }

/-- What is known of options while they are read. -/
structure SourceOptions.Draft where
  namespaceName : Option (Option String) := none
  database : Option UInt8 := none
  tls : Option Bool := none
  poolSize : Option UInt64 := none
  connectTimeout : Option UInt64 := none
  commandTimeout : Option UInt64 := none

/-- The options that a draft comes to. -/
def SourceOptions.Draft.finish (_ : Lack) (d : Draft) : Except Fault SourceOptions :=
  let other : SourceOptions := {}
  .ok {
    namespaceName := d.namespaceName.getD other.namespaceName
    database := d.database.getD other.database
    tls := d.tls.getD other.tls
    poolSize := d.poolSize.getD other.poolSize
    connectTimeout := d.connectTimeout.getD other.connectTimeout
    commandTimeout := d.commandTimeout.getD other.commandTimeout }

/-- What is known of a data source while it is read. -/
structure DataSource.Draft where
  kind : Option SourceKind := none
  source : Option String := none
  credentials : Option (Option Credentials) := none
  options : Option SourceOptions := none

/-- The data source that a draft comes to, which has to have a kind. -/
def DataSource.Draft.finish (lack : Lack) (d : Draft) : Except Fault DataSource := do
  let kind ← lack.require 0 "type" d.kind
  return {
    kind
    source := d.source.getD ""
    credentials := d.credentials.getD none
    options := d.options.getD {} }

/-- What is known of a choice of logging while it is read. -/
structure Logging.Draft where
  level : Option String := none

/-- The choice of logging that a draft comes to. -/
def Logging.Draft.finish (_ : Lack) (d : Draft) : Except Fault Logging :=
  let other : Logging := {}
  .ok { level := d.level.getD other.level }

/-- What is known of a configuration while it is read. -/
structure Config.Draft where
  dataSource : Option DataSource := none
  logging : Option Logging := none

/-- The configuration that a draft comes to, which has to have a data source. -/
def Config.Draft.finish (lack : Lack) (d : Draft) : Except Fault Config := do
  let dataSource ← lack.require 0 "data_source" d.dataSource
  return { dataSource, logging := d.logging.getD {} }

/-! ### Reading -/

/-- The fields of credentials. -/
def Credentials.schema : Schema Draft Credentials where
  title := "Credentials"
  blank := {}
  fields := [
    .of "username" Draft.username (fun b d => { d with username := some b }) (.optional .text),
    .of "password" Draft.password (fun b d => { d with password := some b }) (.optional .text)]
  finish := Draft.finish

/-- The fields of options. -/
def SourceOptions.schema : Schema Draft SourceOptions where
  title := "DataSourceOptions"
  blank := {}
  fields := [
    .of "namespace" Draft.namespaceName (fun b d => { d with namespaceName := some b })
      (.optional .text),
    .of "db_number" Draft.database (fun b d => { d with database := some b })
      (.natural .u8 UInt8.ofNat),
    .of "use_tls" Draft.tls (fun b d => { d with tls := some b }) .boolean,
    .of "pool_size" Draft.poolSize (fun b d => { d with poolSize := some b })
      (.natural .usize UInt64.ofNat),
    .of "connect_timeout_ms" Draft.connectTimeout
      (fun b d => { d with connectTimeout := some b }) (.natural .u64 UInt64.ofNat),
    .of "command_timeout_ms" Draft.commandTimeout
      (fun b d => { d with commandTimeout := some b }) (.natural .u64 UInt64.ofNat)]
  finish := Draft.finish

/-- The fields of a data source. -/
def DataSource.schema : Schema Draft DataSource where
  title := "DataSourceConfig"
  blank := {}
  fields := [
    .of "type" Draft.kind (fun b d => { d with kind := some b }) (.choice SourceKind.words),
    .of "source" Draft.source (fun b d => { d with source := some b }) .text,
    .of "credentials" Draft.credentials (fun b d => { d with credentials := some b })
      (.optional Credentials.schema.shape),
    .of "options" Draft.options (fun b d => { d with options := some b })
      SourceOptions.schema.shape]
  finish := Draft.finish

/-- The fields of a choice of logging. -/
def Logging.schema : Schema Draft Logging where
  title := "LoggingConfig"
  blank := {}
  fields := [.of "level" Draft.level (fun b d => { d with level := some b }) .text]
  finish := Draft.finish

/-- The fields of a configuration. -/
def Config.schema : Schema Draft Config where
  title := "Config"
  blank := {}
  fields := [
    .of "data_source" Draft.dataSource (fun b d => { d with dataSource := some b })
      DataSource.schema.shape,
    .of "logging" Draft.logging (fun b d => { d with logging := some b }) Logging.schema.shape]
  finish := Draft.finish

/-- The data source that a document describes. -/
def DataSource.ofJson (bytes : List UInt8) : Except Fault DataSource :=
  Json.readDocument (schema.json.read Json.maxLevels) bytes

namespace Config

/-- The configuration that a document describes. -/
def ofJson (document : String) : Except Fault Config :=
  Json.readDocument (schema.json.read Json.maxLevels) (Utf8.ofString document)

/-- The configuration that a document of tables describes. -/
def ofToml (document : String) : Except Toml.Refusal Config :=
  match Toml.read document with
  | some v => schema.toml.decode v
  | none => .error .malformed

/-- The formats of configurations. -/
inductive Format where
  | json
  | toml
  deriving DecidableEq, Repr

/-- The configuration that a document of a format describes. -/
def ofDocument (format : Format) (document : String) : Except ConfigError Config :=
  match format with
  | .json => (ofJson document).mapError fun f => .parse f.message
  | .toml => (ofToml document).mapError fun r => .parse r.message

end Config

/-! ### Writing -/

/-- The written form of credentials. -/
def Credentials.write (c : Credentials) : String :=
  Json.writeObject [("username", Json.writeOption Json.writeText c.username),
    ("password", Json.writeOption Json.writeText c.password)]

/-- The written form of options. -/
def SourceOptions.write (o : SourceOptions) : String :=
  Json.writeObject [("namespace", Json.writeOption Json.writeText o.namespaceName),
    ("db_number", toString o.database), ("use_tls", Json.writeBoolean o.tls),
    ("pool_size", toString o.poolSize), ("connect_timeout_ms", toString o.connectTimeout),
    ("command_timeout_ms", toString o.commandTimeout)]

/-- The written form of a data source. -/
def DataSource.write (d : DataSource) : String :=
  Json.writeObject [("type", d.kind.write), ("source", Json.writeText d.source),
    ("credentials", Json.writeOption Credentials.write d.credentials),
    ("options", d.options.write)]

/-- The written form of a choice of logging. -/
def Logging.write (l : Logging) : String :=
  Json.writeObject [("level", Json.writeText l.level)]

/-- The written form of a configuration. -/
def Config.write (c : Config) : String :=
  Json.writeObject [("data_source", c.dataSource.write), ("logging", c.logging.write)]

end IdentityStore
