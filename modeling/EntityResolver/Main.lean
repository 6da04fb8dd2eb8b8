import EntityResolver.CommandLine.Program
import EntityResolver.Usos.Catalog

/-!
The command line of the program.

There is no connection here: every call fails as if the network were down, so of the commands only
those that need no call print a document.
-/

set_option autoImplicit false

namespace EntityResolver

/-- The variables that the program looks at. -/
def watched : List String :=
  ["TAL_CONFIG_PATH", "USOS_API_BASE", "USOS_API_TOKEN", "USOS_LANG", "XDG_CONFIG_HOME", "HOME"]

def readEnvironment : List String → IO Environment
  | [] => return []
  | name :: rest => do
      let found ← IO.getEnv name
      let others ← readEnvironment rest
      return match found with
        | some value => (name, value) :: others
        | none => others

def readStored (path : String) : IO (Except ConfigError (Option String)) := do
  try
    return .ok (some (← IO.FS.readFile path))
  catch
    | .noFileOrDirectory .. => return .ok none
    | error => return .error (.unreadable path (toString error))

def unreachable : Remote := fun _ call =>
  .error (.network call.path "no connection")

/-- Shows how the program ended: the text on one of the streams, and the exit code. -/
def finish : Outcome → IO UInt32
  | .printed text => do
      IO.println text
      return 0
  | .misused => do
      IO.eprintln "usage: tal [--lang X] [--base-url X] [--compact] COMMAND"
      return 2
  | .failed message => do
      IO.eprintln ("Error: " ++ message)
      return 1

end EntityResolver

open EntityResolver in
def main (arguments : List String) : IO UInt32 := do
  let environment ← readEnvironment watched
  match ← readStored environment.configPath with
  | .error error => finish (.failed ("failed to load API configuration: " ++ error.message))
  | .ok stored =>
      finish (runProgram Usos.catalog environment stored unreachable arguments).1
