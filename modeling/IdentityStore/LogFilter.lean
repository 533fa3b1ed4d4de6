/-
Which messages are logged.

A filter is a list of directives, parted by commas.  What the environment says counts
more than the configuration, as long as it is a filter.
-/
import IdentityStore.Config.Basic
import IdentityStore.LogFilter.Directive
import IdentityStore.Text.Split

namespace IdentityStore

/-- The directives that say what is logged. -/
structure LogFilter where
  directives : List LogDirective := []
  deriving DecidableEq, Repr

/-- Why nothing can be logged. -/
inductive LoggingError where
  | badLevel (level : String) (flaw : LogFilterFlaw)
  /-- Another filter is at work already. -/
  | alreadyStarted
  deriving DecidableEq, Repr

/-- What is said of the error. -/
def LoggingError.message : LoggingError → String
  | .badLevel level flaw => s!"invalid log level '{level}': {flaw.message}"
  | .alreadyStarted => "a global default trace dispatcher has already been set"

namespace LogFilter

/-- Reads a filter; nothing between two commas is passed over. -/
def read (s : String) : Except LogFilterFlaw LogFilter := do
  return ⟨← ((Text.split ',' s.toList).filter (· ≠ [])).mapM LogDirective.read⟩

/-- The variable that says what is logged. -/
def filterVariable : String := "RUST_LOG"

/-- The filter of the environment if there is one, else that of the configuration. -/
def choose (look : String → Option String) (l : Logging) : Except LoggingError LogFilter :=
  match (look filterVariable).map read with
  | some (.ok filter) => .ok filter
  | _ => (read l.level).mapError (.badLevel l.level)

/-- The filter to start logging with, of which only one can be at work. -/
def start (current : Option LogFilter) (look : String → Option String) (l : Logging) :
    Except LoggingError LogFilter := do
  let filter ← choose look l
  if current.isSome then throw .alreadyStarted
  return filter

end LogFilter

end IdentityStore
