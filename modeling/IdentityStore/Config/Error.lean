/-
Why a configuration is of no use.

A flaw is a value that is missing or does not go with the others.  Errors keep flaws
apart from files that cannot be read, because only the former can be mended by
changing the content.
-/
import IdentityStore.Text.Quoted

namespace IdentityStore

/-- Why a text is no port. -/
inductive PortFlaw where
  | empty
  | badDigit
  | tooLarge
  deriving DecidableEq, Repr

/-- What is said of the flaw. -/
def PortFlaw.message : PortFlaw → String
  | .empty => "cannot parse integer from empty string"
  | .badDigit => "invalid digit found in string"
  | .tooLarge => "number too large to fit in target type"

/-- A value that is missing or does not go with the others. -/
inductive ConfigFlaw where
  | noSnapshot
  | notAddress (source : String)
  | noHost (source : String)
  | badPort (source : String) (flaw : PortFlaw)
  | noPool
  | noCommandTimeout
  | emptyNamespace
  /-- The name of the file says no known format. -/
  | unknownFormat (extension : Option String) (path : String)
  /-- Anything else, in the words of whoever found it. -/
  | stated (reason : String)
  deriving DecidableEq, Repr

/-- What is said of the flaw. -/
def ConfigFlaw.message : ConfigFlaw → String
  | .noSnapshot => "data_source.source must name a snapshot file"
  | .notAddress source => s!"'{source}' is not host:port"
  | .noHost source => s!"'{source}' has no host"
  | .badPort source flaw => s!"invalid port in '{source}': {flaw.message}"
  | .noPool => "data_source.options.pool_size must be positive"
  | .noCommandTimeout => "data_source.options.command_timeout_ms must be positive"
  | .emptyNamespace => "data_source.options.namespace must not be empty"
  | .unknownFormat none path => s!"unsupported configuration format None for {path}"
  | .unknownFormat (some extension) path =>
    s!"unsupported configuration format Some({Text.quote extension}) for {path}"
  | .stated reason => reason

/-- Why there is no configuration. -/
inductive ConfigError where
  | invalid (flaw : ConfigFlaw)
  /-- The file cannot be read. -/
  | file (detail : String)
  /-- The document cannot be read. -/
  | parse (detail : String)
  deriving DecidableEq, Repr

namespace ConfigError

/-- What is said of the error. -/
def message : ConfigError → String
  | .invalid flaw => s!"configuration error: {flaw.message}"
  | .file detail => s!"I/O error: {detail}"
  | .parse detail => s!"parse error: {detail}"

/-- Holds if the content is at fault, not the file. -/
def isInvalidConfig : ConfigError → Bool
  | .invalid _ | .parse _ => true
  | .file _ => false

end ConfigError

end IdentityStore
