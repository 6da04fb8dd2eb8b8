import EntityResolver.OrderedMap
import EntityResolver.Text.Blank
import EntityResolver.Url.Parser

/-!
Settings of the connection to the remote: what they are, what the environment says about them, and
when they are good for calls.
-/

set_option autoImplicit false

namespace EntityResolver

structure Config where
  baseUrl : String := "https://usosapps.uw.edu.pl/"
  /-- The token that calls carry, if they carry one. -/
  accessToken : Option String := none
  /-- The code of the language of responses. -/
  lang : String := "pl"
  timeoutSecs : Nat := 30
  deriving DecidableEq, Repr

inductive BaseUrlFault where
  | url (error : UrlError)
  /-- Only the machine itself may be called without encryption. -/
  | insecure (scheme : String)
  deriving DecidableEq, Repr

def BaseUrlFault.message : BaseUrlFault → String
  | .url error => error.message
  | .insecure scheme => "non-localhost hosts must use https; got '" ++ scheme ++ "://'"

inductive ConfigError where
  | unreadable (path reason : String)
  | malformed (path : String)
  | baseUrl (url : String) (fault : BaseUrlFault)
  /-- The token cannot stand in a header. -/
  | token
  deriving DecidableEq, Repr

def ConfigError.message : ConfigError → String
  | .unreadable path reason => "Cannot read config file " ++ path ++ ": " ++ reason
  | .malformed path => "Invalid config file " ++ path ++ ": not a configuration"
  | .baseUrl url fault => "Invalid API base URL '" ++ url ++ "': " ++ fault.message
  | .token => "Cannot build HTTP client: failed to parse header value"

/-- The URL that a text writes, if calls may go there: to the machine itself by any scheme, and to
other hosts by `https`. -/
def readBaseUrl (text : String) : Except ConfigError Url :=
  match Url.read text with
  | .error error => .error (.baseUrl text (.url error))
  | .ok url =>
      if url.host.isLocal || url.scheme == "https" then .ok url
      else .error (.baseUrl text (.insecure url.scheme))

namespace Config

/-- A text can stand in a header: its only control characters are tabs. -/
def fitsHeader (text : String) : Bool :=
  text.toList.all fun c => c == '\t' || !Text.isAsciiControl c

/-- The URL that calls go to, if the settings are good for calls. -/
def endpoint (config : Config) : Except ConfigError Url := do
  let url ← readBaseUrl config.baseUrl
  if config.accessToken.all fitsHeader then pure url else throw .token

end Config

abbrev Environment : Type := OrderedMap String

namespace Environment

/-- The value of a variable. A blank value is as good as none. -/
def text? (environment : Environment) (name : String) : Option String :=
  (OrderedMap.get? environment name).filter fun value => !(Text.trimChars value.toList).isEmpty

/-- The settings with those that the environment overrides. -/
def override (environment : Environment) (config : Config) : Config where
  baseUrl := (environment.text? "USOS_API_BASE").getD config.baseUrl
  accessToken := (environment.text? "USOS_API_TOKEN").or config.accessToken
  lang := (environment.text? "USOS_LANG").getD config.lang
  timeoutSecs := config.timeoutSecs

def within (folder name : String) : String :=
  if folder.isEmpty || folder.endsWith "/" then folder ++ name else folder ++ "/" ++ name

/-- The folder of settings: as the environment says, if it gives an absolute path, and otherwise the
one in the home folder. -/
def settingsFolder (environment : Environment) : String :=
  match (OrderedMap.get? environment "XDG_CONFIG_HOME").filter (·.startsWith "/") with
  | some folder => folder
  | none =>
      match (OrderedMap.get? environment "HOME").filter (!·.isEmpty) with
      | some home => within home ".config"
      | none => "."

def configPath (environment : Environment) : String :=
  (environment.text? "TAL_CONFIG_PATH").getD
    (within (within environment.settingsFolder "tal") "config.json")

end Environment

end EntityResolver
