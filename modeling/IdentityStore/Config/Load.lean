/-
Loading the configuration of a deployment.

A file of variables beside the deployment is read first.  Then the configuration is
read from its file, whose name says the format, changed by the variables and checked.
-/
import IdentityStore.Config.Document
import IdentityStore.Environment
import IdentityStore.Files

namespace IdentityStore.Config

/-- The file of variables. -/
def variablesFile : String := ".env"

/-- The format that the name of a file says. -/
def formatOf (path : String) : Except ConfigError Format :=
  match Files.extension? path with
  | some "json" => .ok .json
  | some "toml" => .ok .toml
  | other => .error (.invalid (.unknownFormat other path))

/-- The variables that are set together with those of the file of variables. -/
def withVariablesFile (files : Files) (env : Environment) : Environment :=
  match files variablesFile with
  | .ok bytes => env.addFile bytes
  | .error _ => env

/-- The configuration in a file.  The file is read before its format is looked at. -/
def load (files : Files) (env : Environment) (path : String) :
    Except ConfigError Config := do
  let env := withVariablesFile files env
  let document ← (files.readText path).mapError fun e => .file e.message
  let c := (← ofDocument (← formatOf path) document).override env.look?
  c.validate.mapError .invalid
  return c

end IdentityStore.Config
