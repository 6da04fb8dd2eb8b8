import EntityResolver.Catalog.Picker
import EntityResolver.Remote.Script
import EntityResolver.Selector.Printer

/-!
Methods: the calls of the remote that serve entities, with the fields they supply and the
parameters they take.
-/

set_option autoImplicit false

namespace EntityResolver

structure SingleGetter where
  path : String
  cls : ClassId
  id : IdSpec
  pickers : FieldPickers
  sendsFields : Bool := true
  extra : Params := []

inductive BatchLayout where
  /-- An object with a record for each id; no record, or null, means no entity. -/
  | keyed
  /-- A list of records with their own ids. An id without a record belongs to an entity whose
  fields are null. -/
  | listed (id : IdSpec)
  deriving DecidableEq, Repr

structure BatchGetter where
  path : String
  cls : ClassId
  ids : IdListSpec
  pickers : FieldPickers
  layout : BatchLayout := .keyed
  sendsFields : Bool := true
  /-- The greatest number of entities per call. -/
  limit : Option Nat := none

/-- Serves rows of raw values, one entity per call or all entities with the same selector. -/
structure TableGetter where
  path : String
  cls : ClassId
  fields : List String
  isBatch : Bool

inductive Getter where
  | single (method : SingleGetter)
  | batch (method : BatchGetter)
  | table (method : TableGetter)

namespace Getter

def path : Getter → String
  | .single method => method.path
  | .batch method => method.path
  | .table method => method.path

def cls : Getter → ClassId
  | .single method => method.cls
  | .batch method => method.cls
  | .table method => method.cls

def supplied : Getter → List String
  | .single method => method.pickers.names
  | .batch method => method.pickers.names
  | .table method => method.fields

def checkPickers (schema : Schema) : Getter → Except ResolveError Unit
  | .single method => method.pickers.check schema method.path method.cls
  | .batch method => method.pickers.check schema method.path method.cls
  | .table _ => .ok ()

end Getter

/-- The parameters of a call for one entity. -/
def SingleGetter.params (method : SingleGetter) (id : String) (selector : Selector) :
    Except ValueError Params := do
  let params ← method.id.setParams [] id
  let params :=
    if method.sendsFields then
      params.set fieldsParam (method.pickers.request selector .empty).render
    else params
  return params.extend method.extra

/-- The parameters of a call for several entities. -/
def BatchGetter.params (method : BatchGetter) (ids : List String) (selector : Selector) :
    Except ValueError Params := do
  let params ← method.ids.setParams [] ids
  let api := method.pickers.request selector .empty
  let api :=
    match method.layout with
    | .keyed => api
    | .listed id => id.request api
  return if method.sendsFields then params.set fieldsParam api.render else params

/-- A refused call means that the entity does not exist: the remote says so by its code, or blames
a parameter that carries the id, or gives no such code and says so in its message. -/
def SingleGetter.meansAbsence (method : SingleGetter) : RemoteFailure → Bool
  | .badRequest _ code message param =>
      match code with
      | some "object_not_found" => true
      | some "param_invalid" => param.any method.id.contains
      | _ =>
          let message := message.toList.map Text.asciiLower
          Text.occursIn "does not exist".toList message || Text.occursIn "no such".toList message
  | _ => false

inductive ListStep where
  | key (key : String)
  /-- Every member of an object or a list. -/
  | each
  deriving DecidableEq, Repr

/-- The steps that segments write: `*` is every member. -/
def ListStep.ofSegments (segments : List String) : List ListStep :=
  segments.map fun segment => if segment = "*" then .each else .key segment

structure ListMethod where
  domain : String
  path : String
  cls : ClassId
  pickers : EntityPickers
  steps : List ListStep
  extra : Params := []
  /-- The text around the selector, which stands in the place of each pair of braces. -/
  wrapper : Option String := none
  sendsFields : Bool := true

/-- Puts a text in the place of each pair of braces. -/
def fillBraces (text : List Char) : List Char → List Char
  | [] => []
  | [c] => [c]
  | c :: d :: rest =>
      if c = '\x7b' ∧ d = '\x7d' then text ++ fillBraces text rest
      else c :: fillBraces text (d :: rest)

def ListMethod.params (method : ListMethod) (selector : Selector) : Params :=
  if method.sendsFields then
    let fields := (method.pickers.request selector .empty).render
    let fields :=
      match method.wrapper with
      | some template => String.ofList (fillBraces fields.toList template.toList)
      | none => fields
    method.extra.set fieldsParam fields
  else method.extra

inductive SearchFieldsMode where
  /-- Inside the brackets of `items`. -/
  | full
  /-- As it is. -/
  | partly
  | absent
  deriving DecidableEq, Repr

structure SearchMethod where
  path : String
  cls : ClassId
  /-- Reads the entity found out of an item. -/
  picker : Picker
  fieldsMode : SearchFieldsMode := .full
  queryParam : String := "query"

/-- How many results a search asks for. -/
def searchLimit : Nat := 20

/-- The companion class of the class searched, with the field that holds the entity found. -/
def SearchMethod.itemField (method : SearchMethod) (schema : Schema) :
    Except ResolveError (ClassId × Field) :=
  match (schema.class? method.cls).bind EntityClass.searchItem with
  | none => .error (.invalidMethod method.path (.notSearchable (schema.className method.cls)))
  | some item =>
      match (schema.class? item).bind fun cls => cls.foundField.bind cls.field? with
      | some field => .ok (item, field)
      | none => .error (.invalidMethod method.path (.noFoundField (schema.className item)))

def SearchMethod.params (method : SearchMethod) (query lang : String) (selector : Selector) :
    Params :=
  let params : Params :=
    OrderedMap.ofEntries [("lang", lang), (method.queryParam, query), ("num", toString searchLimit)]
  let fields := (method.picker.request selector (.single matchField .empty)).render
  match method.fieldsMode with
  | .full => params.set fieldsParam ("items[" ++ fields ++ "]")
  | .partly => params.set fieldsParam fields
  | .absent => params

structure CurrentUserMethod where
  path : String
  cls : ClassId
  pickers : EntityPickers

def CurrentUserMethod.params (method : CurrentUserMethod) (selector : Selector) : Params :=
  [(fieldsParam, (method.pickers.request selector .empty).render)]

end EntityResolver
