import EntityResolver.Config.Basic
import EntityResolver.Json.Syntax

/-!
Stored settings: a JSON object with any of the settings by name, or an array of the first ones in
their order. Other members may hold anything; a setting may occur once.
-/

set_option autoImplicit false

namespace EntityResolver.Config

inductive Setting where
  | baseUrl
  | accessToken
  | lang
  | timeoutSecs
  deriving DecidableEq, Repr

/-- The settings in their order. -/
def Setting.all : List Setting :=
  [.baseUrl, .accessToken, .lang, .timeoutSecs]

def Setting.name : Setting → String
  | .baseUrl => "base_url"
  | .accessToken => "access_token"
  | .lang => "lang"
  | .timeoutSecs => "timeout_secs"

def Setting.ofName? (name : String) : Option Setting :=
  Setting.all.find? fun setting => setting.name == name

def store? (config : Config) (setting : Setting) (value : Json.Syntax) : Option Config :=
  match setting, value.value? 1 with
  | .baseUrl, some (.str text) => some { config with baseUrl := text }
  | .accessToken, some .null => some { config with accessToken := none }
  | .accessToken, some (.str text) => some { config with accessToken := some text }
  | .lang, some (.str text) => some { config with lang := text }
  | .timeoutSecs, some (.int count) =>
      if 0 ≤ count then some { config with timeoutSecs := count.toNat } else none
  | _, _ => none

def storeItems? : Config → List Setting → List Json.Syntax → Option Config
  | config, _, [] => some config
  | _, [], _ :: _ => none
  | config, setting :: settings, item :: items => do
      storeItems? (← config.store? setting item) settings items

/-- Stores the members of an object; `missing` are the settings not stored so far. -/
def storeMembers? : Config → List Setting → List (Option String × Json.Syntax) → Option Config
  | config, _, [] => some config
  | config, missing, (key, value) :: rest => do
      match Setting.ofName? (← key) with
      | none => storeMembers? config missing rest
      | some setting =>
          if missing.contains setting then
            storeMembers? (← config.store? setting value) (missing.erase setting) rest
          else none

/-- The settings that a stored text gives, with defaults for the others. -/
def ofText? (text : String) : Option Config := do
  match ← Json.Syntax.read? text with
  | .array items => storeItems? {} Setting.all items
  | .object members => storeMembers? {} Setting.all members
  | _ => none

/-- The settings in force, given the stored text if there is one. -/
def load (environment : Environment) (stored : Option String) : Except ConfigError Config := do
  let config ← match stored with
    | none => pure {}
    | some text =>
        match ofText? text with
        | some config => pure config
        | none => throw (.malformed environment.configPath)
  let config := environment.override config
  let _ ← readBaseUrl config.baseUrl
  return config

end EntityResolver.Config
