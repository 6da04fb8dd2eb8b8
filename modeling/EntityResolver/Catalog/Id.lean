import EntityResolver.Error
import EntityResolver.Json.Printer

/-!
How the id of an entity is sent with a call and read from a response.
-/

set_option autoImplicit false

namespace EntityResolver

/-- The text of a document that is part of an id: a text is itself. -/
def idText : Json → String
  | .str text => text
  | other => other.render

inductive IdSpec where
  /-- One key holds the id. -/
  | elementary (key : String)
  /-- The values of several keys are packed into the id. -/
  | composite (keys : List String)
  deriving DecidableEq, Repr

namespace IdSpec

def keys : IdSpec → List String
  | .elementary key => [key]
  | .composite keys => keys

def contains (spec : IdSpec) (name : String) : Bool :=
  spec.keys.contains name

def setParams (spec : IdSpec) (params : Params) (id : String) : Except ValueError Params :=
  match spec with
  | .elementary key => .ok (params.set key id)
  | .composite keys => do
      let parts ← unpackId id (some keys.length)
      return params.extend (keys.zip parts)

/-- Asks for the keys of an id. What was asked for below them is dropped. -/
def request (spec : IdSpec) (api : Selector) : Selector :=
  spec.keys.foldl (fun api key => api.insert key .empty) api

def lookUp (path : String) (response : Json) (key : String) : Except ResolveError Json :=
  match response.member? key with
  | some value => .ok value
  | none => .error (.malformed path (.missingIdKey key))

def lookUpTexts (path : String) (response : Json) : List String → Except ResolveError (List String)
  | [] => .ok []
  | key :: rest => do
      let value ← lookUp path response key
      let texts ← lookUpTexts path response rest
      return idText value :: texts

/-- The id that a response holds; there is none where its only key is null. -/
def load (spec : IdSpec) (path : String) (response : Json) : Except ResolveError (Option String) :=
  match spec with
  | .elementary key => do
      let value ← lookUp path response key
      return if value.isNull then none else some (idText value)
  | .composite keys => do
      let texts ← lookUpTexts path response keys
      return some (PackedId.pack texts)

end IdSpec

/-- How the ids of a batch are sent, and under which keys their records come back. -/
inductive IdListSpec where
  /-- Ids joined with `|`; a record stands under its id. -/
  | elementary (param : String)
  /-- Tuples of the parts of ids, joined with `|`; a record stands under its tuple. -/
  | tuple (param : String)
  deriving DecidableEq, Repr

namespace IdListSpec

def param : IdListSpec → String
  | .elementary param => param
  | .tuple param => param

def key (spec : IdListSpec) (id : String) : Except ValueError String :=
  match spec with
  | .elementary _ => .ok id
  | .tuple _ => do
      let parts ← unpackId id none
      return "(" ++ ",".intercalate parts ++ ")"

def keysOf (spec : IdListSpec) : List String → Except ValueError (List String)
  | [] => .ok []
  | id :: rest => do
      let key ← spec.key id
      let keys ← keysOf spec rest
      return key :: keys

def setParams (spec : IdListSpec) (params : Params) (ids : List String) :
    Except ValueError Params := do
  let keys ← spec.keysOf ids
  return params.set spec.param ("|".intercalate keys)

end IdListSpec

end EntityResolver
