import EntityResolver.CommandLine.Description
import EntityResolver.CommandLine.Invocation
import EntityResolver.Config.File
import EntityResolver.Json.Printer
import EntityResolver.Session

/-!
The program: an invocation, in an environment and with stored settings, prints a document or fails.
-/

set_option autoImplicit false

namespace EntityResolver

inductive Outcome where
  | printed (text : String)
  /-- The arguments are not used as they should be. -/
  | misused
  | failed (message : String)
  deriving DecidableEq, Repr

namespace Command

def failure : Command → String
  | .get cls id _ => "failed to get " ++ cls ++ " '" ++ id ++ "'"
  | .getMany cls _ _ => "failed to get " ++ cls ++ " entities"
  | .list cls domain _ => "failed to list " ++ cls ++ " in domain '" ++ domain ++ "'"
  | .search cls query _ => "failed to search " ++ cls ++ " for '" ++ query ++ "'"
  | .classes => "failed to describe the classes"

def request (session : Session) : Command → Request Json
  | .get cls id fields => do return (← session.get cls id fields).document
  | .getMany cls ids fields => do
      return Entity.documentById (← session.getMany cls ids fields)
  | .list cls domain fields => do
      return Entity.documentOfAll (← session.list cls domain fields)
  | .search cls query fields => do
      return SearchResult.documentOfAll (← session.search cls query fields)
  | .classes => return session.catalog.describe

def run (session : Session) (print : Json → String) (command : Command) : Outcome × List Call :=
  match command.request session {} with
  | .ok document ended => (.printed (print document), ended.calls)
  | .error error ended => (.failed (command.failure ++ ": " ++ error.message), ended.calls)

end Command

namespace Invocation

/-- The settings of an invocation, whose options come before all else. -/
def settings (invocation : Invocation) (config : Config) : Config :=
  { config with
    baseUrl := invocation.baseUrl.getD config.baseUrl
    lang := invocation.lang.getD config.lang }

def print (invocation : Invocation) (document : Json) : String :=
  if invocation.compact then document.sorted.render else document.sorted.renderPretty

/-- The session of an invocation, or why there can be none. -/
def session (invocation : Invocation) (environment : Environment) (stored : Option String)
    (catalog : Catalog) (remote : Remote) : Except String Session :=
  match Config.load environment stored with
  | .error error => .error ("failed to load API configuration: " ++ error.message)
  | .ok config =>
      let config := invocation.settings config
      match Lang.ofCode config.lang with
      | .error error => .error ("invalid response language: " ++ error.message)
      | .ok lang =>
          match config.endpoint with
          | .error error => .error ("failed to create the API transport: " ++ error.message)
          | .ok _ => .ok { catalog, remote, lang }

def run (invocation : Invocation) (environment : Environment) (stored : Option String)
    (catalog : Catalog) (remote : Remote) : Outcome × List Call :=
  if invocation.command = .classes then (.printed (invocation.print catalog.describe), [])
  else
    match invocation.session environment stored catalog remote with
    | .error message => (.failed message, [])
    | .ok session => invocation.command.run session invocation.print

end Invocation

def runProgram (catalog : Except ResolveError Catalog) (environment : Environment)
    (stored : Option String) (remote : Remote) (arguments : List String) : Outcome × List Call :=
  match Invocation.read? arguments with
  | none => (.misused, [])
  | some invocation =>
      match catalog with
      | .error error => (.failed ("failed to build the method catalog: " ++ error.message), [])
      | .ok catalog => invocation.run environment stored catalog remote

end EntityResolver
