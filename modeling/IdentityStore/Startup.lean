/-
From a configuration to a repository.

The data source is checked first, so that what fails afterwards fails for a reason
that lies outside the configuration, or in a namespace that keys cannot have.  An
error is told as a chain, from what was attempted to what went wrong.
-/
import IdentityStore.Config.Basic
import IdentityStore.Keys
import IdentityStore.Server
import IdentityStore.Snapshot.Repository

namespace IdentityStore

/-- Why there is no repository. -/
inductive StartupError where
  | invalid (flaw : ConfigFlaw)
  | badAddress (flaw : ConfigFlaw)
  | noSnapshot (source : String) (error : StorageError)
  | noConnection (source : String) (error : StoreError)
  | badNamespace (ns : String) (error : StorageError)
  deriving DecidableEq

/-- What is said of the error, the outermost first. -/
def StartupError.chain : StartupError → List String
  | .invalid flaw =>
    ["invalid data source configuration", (ConfigError.invalid flaw).message]
  | .badAddress flaw => [(ConfigError.invalid flaw).message]
  | .noSnapshot source error => [s!"failed to load snapshot {source}", error.message]
  | .noConnection source error => [s!"failed to connect to Redis at {source}", error.message]
  | .badNamespace ns error => [s!"invalid namespace '{ns}'", error.message]

/-- The keys of the namespace that the options name. -/
def SourceOptions.keySpace (o : SourceOptions) : Except StartupError KeySpace :=
  match o.namespaceName with
  | some ns => (KeySpace.ofNamespace ns).mapError (.badNamespace ns)
  | none => .ok KeySpace.default

/-- What keeps the records of a repository. -/
inductive Backend where
  | snapshot (repository : SnapshotRepository)
  | memory (keys : KeySpace)
  | server (settings : Server.Settings) (keys : KeySpace)

namespace DataSource

/-- A part of the credentials; an empty one is none. -/
def credential (d : DataSource) (part : Credentials → Option String) : Option String :=
  (d.credentials.bind part).filter (· ≠ "")

/-- How to reach the server that the data source names. -/
def settings (d : DataSource) : Except StartupError Server.Settings := do
  let (host, port) ← d.address.mapError .badAddress
  return {
    host, port
    username := d.credential (·.username)
    password := d.credential (·.password)
    database := d.options.database
    tls := d.options.tls
    poolSize := d.options.poolSize
    connectTimeout := d.options.connectTimeout
    commandTimeout := d.options.commandTimeout }

/-- The backend of a data source.  `connect` is all that needs the server; whether there can
be a server at the address is seen before. -/
def build (files : Files) (connect : Server.Settings → Except StoreError Unit) (d : DataSource) :
    Except StartupError Backend := do
  d.validate.mapError .invalid
  match d.kind with
  | .file =>
    return .snapshot (← (SnapshotRepository.load files d.source).mapError (.noSnapshot d.source))
  | .redis =>
    let settings ← d.settings
    settings.check.mapError (.noConnection d.source)
    (connect settings).mapError (.noConnection d.source)
    return .server settings (← d.options.keySpace)
  | .memory => return .memory (← d.options.keySpace)

end DataSource

end IdentityStore
