/-
Reaching a store that is a server of its own.

The settings say where the server is and how to be let in; the address never shows
who is let in.  What the server's client reports is turned into an error of the
store by the kind of the report, except that a complaint about the kind of a value
is told by its words.
-/
import IdentityStore.Json.Record
import IdentityStore.Json.Writer
import IdentityStore.Server.Address
import IdentityStore.Store.Error

namespace IdentityStore.Server

open Json (Reader)

/-- How to reach a server. -/
structure Settings where
  host : String := "localhost"
  port : UInt16 := 6379
  username : Option String := none
  password : Option String := none
  /-- Which of the server's databases. -/
  database : UInt8 := 0
  /-- Whether the connection is encrypted. -/
  tls : Bool := false
  /-- How many connections are kept. -/
  poolSize : UInt64 := 4
  /-- How many milliseconds connecting may take. -/
  connectTimeout : UInt64 := 5000
  /-- How many milliseconds a request may take. -/
  commandTimeout : UInt64 := 2000
  deriving DecidableEq, Repr

namespace Settings

/-- Where the server and its database are. -/
def address (s : Settings) : String := s!"{s.host}:{s.port}/{s.database}"

/-- The address of the server with its scheme, without credentials. -/
def url (s : Settings) : String :=
  let scheme := if s.tls then "rediss" else "redis"
  s!"{scheme}://{s.address}"

/-! ### Documents -/

/-- Reads a whole number of eight bits. -/
def readU8 : Reader UInt8 := fun s => (Json.natural .u8 s).map fun n => (UInt8.ofNat n.1, n.2)

/-- Reads a whole number of sixteen bits. -/
def readU16 : Reader UInt16 := fun s => (Json.natural .u16 s).map fun n => (UInt16.ofNat n.1, n.2)

/-- Reads a whole number of sixty-four bits, named in messages as the kind `w`. -/
def readU64 (w : Width) : Reader UInt64 := fun s =>
  (Json.natural w s).map fun n => (UInt64.ofNat n.1, n.2)

/-- What is known of settings while they are read. -/
structure Draft where
  host : Option String := none
  port : Option UInt16 := none
  username : Option (Option String) := none
  password : Option (Option String) := none
  database : Option UInt8 := none
  tls : Option Bool := none
  poolSize : Option UInt64 := none
  connectTimeout : Option UInt64 := none
  commandTimeout : Option UInt64 := none

/-- The settings that a draft comes to, all of which have defaults. -/
def Draft.finish (d : Draft) : Settings :=
  let other : Settings := {}
  { host := d.host.getD other.host
    port := d.port.getD other.port
    username := d.username.getD other.username
    password := d.password.getD other.password
    database := d.database.getD other.database
    tls := d.tls.getD other.tls
    poolSize := d.poolSize.getD other.poolSize
    connectTimeout := d.connectTimeout.getD other.connectTimeout
    commandTimeout := d.commandTimeout.getD other.commandTimeout }

/-- The fields of settings. -/
def record : Json.Record Draft Settings where
  title := "RedisConfig"
  blank := {}
  fields := [
    .of "host" Draft.host (fun b d => { d with host := some b }) fun _ => Json.text "a string",
    .of "port" Draft.port (fun b d => { d with port := some b }) fun _ => readU16,
    .of "username" Draft.username (fun b d => { d with username := some b })
      fun _ => Json.optional (Json.text "a string"),
    .of "password" Draft.password (fun b d => { d with password := some b })
      fun _ => Json.optional (Json.text "a string"),
    .of "database" Draft.database (fun b d => { d with database := some b }) fun _ => readU8,
    .of "tls" Draft.tls (fun b d => { d with tls := some b }) fun _ => Json.boolean,
    .of "pool_size" Draft.poolSize (fun b d => { d with poolSize := some b })
      fun _ => readU64 .usize,
    .of "connect_timeout_ms" Draft.connectTimeout
      (fun b d => { d with connectTimeout := some b }) fun _ => readU64 .u64,
    .of "command_timeout_ms" Draft.commandTimeout
      (fun b d => { d with commandTimeout := some b }) fun _ => readU64 .u64]
  finish _ d := .ok d.finish

/-- The settings that a document describes. -/
def ofDocument (bytes : List UInt8) : Except Fault Settings :=
  Json.readDocument (record.read Json.maxLevels) bytes

/-- The written form of settings. -/
def write (s : Settings) : String :=
  Json.writeObject [("host", Json.writeText s.host), ("port", toString s.port),
    ("username", Json.writeOption Json.writeText s.username),
    ("password", Json.writeOption Json.writeText s.password),
    ("database", toString s.database), ("tls", Json.writeBoolean s.tls),
    ("pool_size", toString s.poolSize), ("connect_timeout_ms", toString s.connectTimeout),
    ("command_timeout_ms", toString s.commandTimeout)]

end Settings

/-! ### Reports of the client -/

/-- The kinds of report. -/
inductive ReportKind where
  | config
  | auth
  | routing
  | io
  | invalidCommand
  | invalidArgument
  | url
  | protocol
  | canceled
  | unknown
  | timeout
  | parse
  | notFound
  | backpressure
  deriving DecidableEq, Repr

/-- The name of a kind in messages. -/
def ReportKind.label : ReportKind → String
  | .config => "Config Error"
  | .auth => "Authentication Error"
  | .routing => "Routing Error"
  | .io => "IO Error"
  | .invalidCommand => "Invalid Command"
  | .invalidArgument => "Invalid Argument"
  | .url => "Url Error"
  | .protocol => "Protocol Error"
  | .canceled => "Canceled"
  | .unknown => "Unknown Error"
  | .timeout => "Timeout Error"
  | .parse => "Parse Error"
  | .notFound => "Not Found"
  | .backpressure => "Backpressure"

/-- What the client of the server reports. -/
structure Report where
  kind : ReportKind
  details : String
  deriving DecidableEq, Repr

namespace Report

/-- What is said of the report. -/
def message (r : Report) : String := s!"{r.kind.label}: {r.details}"

/-- How a complaint about the kind of a value begins. -/
def wrongTypeMark : String := "WRONGTYPE"

/-- The error of the store that a report amounts to. -/
def toStoreError (r : Report) : StoreError :=
  if wrongTypeMark.toList.isPrefixOf r.details.toList then .wrongType r.details
  else
    match r.kind with
    | .timeout => .timeout
    | .io | .canceled => .connection r.message
    | .config | .url => .configuration r.message
    | _ => .internal r.message

/-- The report on an address that is none. -/
def ofFlaw : AddressFlaw → Report
  | .emptyHost => ⟨.url, "EmptyHost"⟩
  | .badCharacter => ⟨.url, "InvalidDomainCharacter"⟩
  | .badBrackets => ⟨.url, "InvalidIpv6Address"⟩
  | .badPort => ⟨.url, "InvalidPort"⟩
  | .noHost => ⟨.config, "Invalid or missing host."⟩
  | .badPath => ⟨.config, "Invalid database path."⟩
  | .badDatabase => ⟨.parse, "Invalid non floating point number."⟩

end Report

/-- Refuses the settings with which no connection can even be tried.  Whatever the kind of
the report, it is the settings that are at fault. -/
def Settings.check (s : Settings) : Except StoreError Unit :=
  match Address.flaw? s.address.toList with
  | some flaw => .error (.configuration (Report.ofFlaw flaw).message)
  | none => .ok ()

end IdentityStore.Server
