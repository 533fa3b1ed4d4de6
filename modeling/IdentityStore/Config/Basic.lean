/-
What a deployment can choose: where its records are kept and what it logs.

A configuration is read from a document, then changed by variables of the
environment, then checked.  A checked one names a snapshot file, or a server by
host and port with at least one connection and some time for each request, or
nothing but memory.
-/
import IdentityStore.Config.Error
import IdentityStore.Text.Blank
import IdentityStore.Text.Digit

namespace IdentityStore

/-- What keeps the records. -/
inductive SourceKind where
  /-- A snapshot in a file. -/
  | file
  /-- A keyed store on a server. -/
  | redis
  /-- A keyed store in memory. -/
  | memory
  deriving DecidableEq, Repr

/-- Who asks to be let into a store. -/
structure Credentials where
  username : Option String := none
  password : Option String := none
  deriving DecidableEq, Repr

/-- The finer choices about a keyed store. -/
structure SourceOptions where
  /-- The namespace of its keys, the usual one if none is given. -/
  namespaceName : Option String := none
  database : UInt8 := 0
  tls : Bool := false
  poolSize : UInt64 := 4
  /-- How many milliseconds connecting may take. -/
  connectTimeout : UInt64 := 5000
  /-- How many milliseconds a request may take. -/
  commandTimeout : UInt64 := 2000
  deriving DecidableEq, Repr

/-- Where records are kept. -/
structure DataSource where
  kind : SourceKind
  /-- The path of a snapshot, or host and port of a server. -/
  source : String := ""
  credentials : Option Credentials := none
  options : SourceOptions := {}
  deriving DecidableEq, Repr

/-- What is logged. -/
structure Logging where
  level : String := "info"
  deriving DecidableEq, Repr

/-- All that a deployment can choose. -/
structure Config where
  dataSource : DataSource
  logging : Logging := {}
  deriving DecidableEq, Repr

/-! ### Addresses -/

/-- Reads the digits of a port, `n` being what the ones before come to. -/
def readPortDigits (n : Nat) : List Char → Except PortFlaw Nat
  | [] => .ok n
  | c :: r =>
    match Text.decimalDigit? c with
    | none => .error .badDigit
    | some d => if n * 10 + d < 65536 then readPortDigits (n * 10 + d) r else .error .tooLarge

/-- Reads a port: digits, perhaps with a plus sign in front. -/
def readPort (cs : List Char) : Except PortFlaw UInt16 :=
  let digits (cs : List Char) : Except PortFlaw UInt16 :=
    (readPortDigits 0 cs).map UInt16.ofNat
  match cs with
  | [] => .error .empty
  | ['+'] => .error .badDigit
  | '+' :: r => digits r
  | cs => digits cs

/-- What stands before and behind the last colon. -/
def splitLastColon? : List Char → Option (List Char × List Char)
  | [] => none
  | c :: r =>
    match splitLastColon? r with
    | some (host, port) => some (c :: host, port)
    | none => if c = ':' then some ([], r) else none

namespace DataSource

/-- Host and port of the server that the source names. -/
def address (d : DataSource) : Except ConfigFlaw (String × UInt16) :=
  match splitLastColon? d.source.toList with
  | none => .error (.notAddress d.source)
  | some ([], _) => .error (.noHost d.source)
  | some (host, port) =>
    match readPort port with
    | .ok p => .ok (String.ofList host, p)
    | .error flaw => .error (.badPort d.source flaw)

/-! ### Checking -/

/-- The checks that belong to one kind of source. -/
def validateKind (d : DataSource) : Except ConfigFlaw Unit :=
  match d.kind with
  | .file => if Text.trim d.source = "" then .error .noSnapshot else .ok ()
  | .redis => do
    let _ ← d.address
    if d.options.poolSize = 0 then throw .noPool
    if d.options.commandTimeout = 0 then throw .noCommandTimeout
  | .memory => .ok ()

/-- The first value that is missing or does not go with the others. -/
def validate (d : DataSource) : Except ConfigFlaw Unit := do
  d.validateKind
  if d.options.namespaceName = some "" then throw .emptyNamespace

end DataSource

namespace Config

/-- The first value that is missing or does not go with the others. -/
def validate (c : Config) : Except ConfigFlaw Unit := c.dataSource.validate

/-! ### Changing by the environment -/

/-- The variable that replaces the source. -/
def sourceVariable : String := "IAM_DATA_SOURCE"

/-- The variable that replaces the namespace. -/
def namespaceVariable : String := "IAM_NAMESPACE"

/-- The variable that replaces the password. -/
def passwordVariable : String := "IAM_REDIS_PASSWORD"

/-- Changes a configuration by the variables that are set. -/
def override (look : String → Option String) (c : Config) : Config :=
  let d := c.dataSource
  let d := match look sourceVariable with
    | some source => { d with source }
    | none => d
  let d := match look namespaceVariable with
    | some ns => { d with options := { d.options with namespaceName := some ns } }
    | none => d
  let d := match look passwordVariable with
    | some password =>
      { d with credentials := some { d.credentials.getD {} with password := some password } }
    | none => d
  { c with dataSource := d }

end Config

end IdentityStore
