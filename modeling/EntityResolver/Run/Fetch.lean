import EntityResolver.Run.Candidacy
import EntityResolver.Run.Load

/-!
Executing a candidacy: one call, and what it says about each entity.
-/

set_option autoImplicit false

namespace EntityResolver

inductive FetchOutcome where
  | found (values : FieldValues)
  | absent

/-- What a call says about the entities that it was made for, by id. -/
abbrev FetchResults : Type := OrderedMap FetchOutcome

namespace SingleGetter

/-- Fetches an entity. Null, or a refusal that means absence, says that it does not exist. -/
def fetch (method : SingleGetter) (id : String) (selector : Selector) : Run FetchOutcome := do
  let params ← ofExcept (liftError .value (method.params id selector))
  match ← Run.call method.path params with
  | .ok .null => return .absent
  | .ok response => return .found (← method.pickers.load method.path method.cls response selector)
  | .error failure =>
      if method.meansAbsence failure then return .absent else throw (.remote failure)

def fetchAll (method : SingleGetter) (selector : Selector) : List String → Run FetchResults
  | [] => pure []
  | id :: rest => do
      let outcome ← method.fetch id selector
      let results ← method.fetchAll selector rest
      return (id, outcome) :: results

end SingleGetter

namespace BatchGetter

/-- What an object of records says about ids. -/
def readKeyed (method : BatchGetter) (selector : Selector) (records : Json) :
    List String → Run FetchResults
  | [] => pure []
  | id :: rest => do
      let key ← ofExcept (liftError .value (method.ids.key id))
      let outcome ←
        match records.member? key with
        | none | some .null => pure FetchOutcome.absent
        | some record => do
            let values ← method.pickers.load method.path method.cls record selector
            pure (.found values)
      let results ← method.readKeyed selector records rest
      return (id, outcome) :: results

/-- The values of the first record of each id wanted, the records read in order. -/
def readRecords (method : BatchGetter) (spec : IdSpec) (wanted : List String)
    (selector : Selector) (found : OrderedMap FieldValues) :
    List Json → Run (OrderedMap FieldValues)
  | [] => pure found
  | record :: rest => do
      if record.isNull then method.readRecords spec wanted selector found rest
      else
        match ← ofExcept (spec.load method.path record) with
        | none => method.readRecords spec wanted selector found rest
        | some id =>
            if found.contains id || !wanted.contains id then
              method.readRecords spec wanted selector found rest
            else
              let values ← method.pickers.load method.path method.cls record selector
              method.readRecords spec wanted selector (found.set id values) rest

def nullValue (kind : FieldKind ClassId) : FieldValue Handle :=
  match kind with
  | .scalar _ => .scalar .null
  | .entity _ => .missing
  | .optionalEntity _ => .optional none
  | .entityList _ => .list []
  | .entityMap _ => .map []

/-- The values of an entity that exists but has no record. -/
def nullValues (schema : Schema) (cls : ClassId) (selector : Selector) : FieldValues :=
  selector.names.filterMap fun name =>
    (schema.field? cls name).map fun field => (field.name, nullValue field.kind)

def readListed (method : BatchGetter) (spec : IdSpec) (ids : List String) (selector : Selector)
    (response : Json) : Run FetchResults := do
  let records ←
    match response with
    | .null => pure []
    | .array records => pure records
    | _ => throw (.malformed method.path .batchNotListed)
  let found ← method.readRecords spec ids selector [] records
  let schema ← Run.schema
  return ids.map fun id =>
    (id, .found ((found.get? id).getD (nullValues schema method.cls selector)))

def fetchAll (method : BatchGetter) (ids : List String) (selector : Selector) :
    Run FetchResults := do
  let params ← ofExcept (liftError .value (method.params ids selector))
  let response ← Run.callOrFail method.path params
  match method.layout with
  | .listed spec => method.readListed spec ids selector response
  | .keyed =>
      match response with
      | .object _ => method.readKeyed selector response ids
      | _ => throw (.malformed method.path .batchNotKeyed)

end BatchGetter

namespace TableGetter

/-- The selected values of a row. A field that is no key of the row has none. -/
def rowValues (row : Json) (selector : Selector) : FieldValues :=
  selector.names.filterMap fun name =>
    (row.member? name).map fun value => (name, .scalar (.ofJson value))

/-- What a table says about ids. An id without a row is left out. -/
def readRows (table : Json) (selector : Selector) : List String → FetchResults
  | [] => []
  | id :: rest =>
      match table.member? id with
      | none => readRows table selector rest
      | some (.object members) =>
          (id, .found (rowValues (.object members) selector)) :: readRows table selector rest
      | some _ => (id, .absent) :: readRows table selector rest

def fetchAll (method : TableGetter) (ids : List String) (selector : Selector) :
    Run FetchResults := do
  let table ← Run.callOrFail method.path [("ids", ",".intercalate ids)]
  return readRows table selector ids

end TableGetter

def Getter.fetch (getter : Getter) (candidacy : Candidacy) : Run FetchResults :=
  match getter with
  | .single method => method.fetchAll candidacy.selector candidacy.ids
  | .batch method => method.fetchAll candidacy.ids candidacy.selector
  | .table method => method.fetchAll candidacy.ids candidacy.selector

end EntityResolver
