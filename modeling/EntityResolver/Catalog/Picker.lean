import EntityResolver.Catalog.Id

/-!
Pickers: where in a response a field is found, and what of the response has to be asked for to find
it there.
-/

set_option autoImplicit false

namespace EntityResolver

inductive ScalarRule where
  /-- As it is. -/
  | raw
  /-- A text by language. -/
  | byLang
  /-- A link; what counts as nothing becomes null. -/
  | url
  /-- A link to a profile page, to which the language is added. -/
  | profileUrl
  | decimal
  | date
  | dateTime
  | coords
  /-- A replacement from a table. In an open table other values stay as they are. -/
  | mapping (pairs : List (Json × Json)) (isOpen : Bool)

inductive NestedShape where
  /-- One object, or null. -/
  | single
  | list
  /-- An object of objects. -/
  | map
  /-- The ancestors of an entity, the farthest first. -/
  | ancestors
  deriving DecidableEq, Repr

mutual

/-- Where a field is found in a response. -/
inductive Picker where
  | scalar (rule : ScalarRule) (key : String)
  /-- An entity whose id stands among the keys of the response. -/
  | reference (id : IdSpec)
  /-- Entities whose ids stand in a list. -/
  | referenceList (key : String)
  /-- Entities whose ids are the values of an object, or its keys if `flipped`. -/
  | referenceMap (key : String) (flipped : Bool)
  /-- An entity whose id and fields stand among the keys of the response. -/
  | inline (id : IdSpec) (fields : FieldPickers)
  /-- Entities that are the members of the response. -/
  | inlineList (id : IdSpec) (fields : FieldPickers)
  /-- Entities read from objects under a key. Without `hasSubfields` the key is asked for as a
  whole. Lifting copies a value of the response under a key of each object. In a `unique` list only
  the first entity of each id counts. -/
  | nested (shape : NestedShape) (key : String) (id : IdSpec) (fields : FieldPickers)
      (hasSubfields : Bool) (lifts : List (String × String)) (unique : Bool)

inductive FieldPickers where
  | none
  | field (name : String) (picker : Picker) (rest : FieldPickers)

end

instance : Inhabited Picker := ⟨.referenceList ""⟩

instance : Inhabited FieldPickers := ⟨.none⟩

namespace FieldPickers

def names : FieldPickers → List String
  | .none => []
  | .field name _ rest => name :: names rest

def find? : FieldPickers → String → Option Picker
  | .none, _ => Option.none
  | .field name picker rest, wanted => if name = wanted then some picker else find? rest wanted

/-- Sets the picker of a field: in its place if it has one, at the end otherwise. -/
def set (name : String) (picker : Picker) : FieldPickers → FieldPickers
  | .none => .field name picker .none
  | .field other old rest =>
      if other = name then .field name picker rest else .field other old (set name picker rest)

def merge (base : FieldPickers) : FieldPickers → FieldPickers
  | .none => base
  | .field name picker rest => merge (base.set name picker) rest

def ofList (pickers : List (String × Picker)) : FieldPickers :=
  pickers.foldl (fun built (name, picker) => built.set name picker) .none

end FieldPickers

structure EntityPickers where
  id : IdSpec
  fields : FieldPickers

/-- Asks for a key, besides what is asked for already. -/
def Selector.addKey (api : Selector) (key : String) (sub : Selector) : Selector :=
  api.merge (Selector.single key sub)

/-- Asks for lifted keys where their values come from: what is asked for under the key of the
nested objects is asked for under that of the response. Gives both requests. -/
def liftRequests : List (String × String) → Selector → Selector → Selector × Selector
  | [], api, nested => (api, nested)
  | (field, lifted) :: rest, api, nested =>
      match nested.entry? lifted with
      | some entry => liftRequests rest (api.addKey field entry.detached) (nested.erase lifted)
      | none => liftRequests rest api nested

/-- Asks for the keys of all selected fields. A recursive field is asked for with the selector
around it, not followed further. -/
def requestFields (requestField : String → Selector → Selector → Selector)
    (selector api : Selector) : Selector :=
  selector.entries.foldl (fun api (name, entry) =>
    requestField name
      (match entry with
        | .nested sub => sub
        | .recursive => selector.unrolled)
      api) api

mutual

/-- Asks for the keys that a picker reads, for a field selected with `sub`. -/
def Picker.request : Picker → Selector → Selector → Selector
  | .scalar _ key, _, api => api.addKey key .empty
  | .reference id, _, api => id.request api
  | .referenceList key, _, api => api.addKey key .empty
  | .referenceMap key _, _, api => api.addKey key .empty
  | .inline id fields, sub, api =>
      id.request (requestFields (fun name sub api => fields.requestField name sub api) sub api)
  | .inlineList id fields, sub, api =>
      id.request (requestFields (fun name sub api => fields.requestField name sub api) sub api)
  | .nested _ key id fields hasSubfields lifts _, sub, api =>
      let nested :=
        id.request (requestFields (fun name sub api => fields.requestField name sub api) sub .empty)
      let (api, nested) := liftRequests lifts api nested
      api.addKey key (if hasSubfields then nested else .empty)

def FieldPickers.requestField : FieldPickers → String → Selector → Selector → Selector
  | .none, _, _, api => api
  | .field name picker rest, wanted, sub, api =>
      if name = wanted then picker.request sub api else rest.requestField wanted sub api

end

/-- Asks for the keys of all selected fields that have pickers. -/
def FieldPickers.request (fields : FieldPickers) (selector api : Selector) : Selector :=
  requestFields fields.requestField selector api

/-- Asks for the keys of an entity: its selected fields, then its id. -/
def EntityPickers.request (pickers : EntityPickers) (selector api : Selector) : Selector :=
  pickers.id.request (pickers.fields.request selector api)

def Picker.fits : Picker → FieldKind ClassId → Bool
  | .scalar _ _, .scalar _ => true
  | .reference _, .entity _ | .reference _, .optionalEntity _ => true
  | .referenceList _, .entityList _ => true
  | .referenceMap _ _, .entityMap _ => true
  | .inline _ _, .entity _ | .inline _ _, .optionalEntity _ => true
  | .inlineList _ _, .entityList _ => true
  | .nested .list _ _ _ _ _ _, .entityList _ => true
  | .nested .map _ _ _ _ _ _, .entityMap _ => true
  | .nested .single _ _ _ _ _ _, .entity _ | .nested .single _ _ _ _ _ _, .optionalEntity _ => true
  | .nested .ancestors _ _ _ _ _ _, .entity _ => true
  | .nested .ancestors _ _ _ _ _ _, .optionalEntity _ => true
  | _, _ => false

def Field.target (field : Field) (path : String) : Except ResolveError ClassId :=
  match field.kind.target? with
  | some target => .ok target
  | none => .error (.invalidMethod path (.notEntityField field.name))

def Picker.checkKind (path : String) (picker : Picker) (field : Field) : Except ResolveError Unit :=
  if picker.fits field.kind then .ok ()
  else .error (.invalidMethod path (.kindMismatch field.name field.kind))

mutual

/-- Checks a picker, and those inside it, against the field that it reads. -/
def Picker.check (schema : Schema) (path : String) : Picker → Field → Except ResolveError Unit
  | .inline id fields, field => do
      Picker.checkKind path (.inline id fields) field
      fields.check schema path (← field.target path)
  | .inlineList id fields, field => do
      Picker.checkKind path (.inlineList id fields) field
      fields.check schema path (← field.target path)
  | .nested shape key id fields hasSubfields lifts unique, field => do
      Picker.checkKind path (.nested shape key id fields hasSubfields lifts unique) field
      fields.check schema path (← field.target path)
  | picker, field => Picker.checkKind path picker field

def FieldPickers.check (schema : Schema) (path : String) :
    FieldPickers → ClassId → Except ResolveError Unit
  | .none, _ => .ok ()
  | .field name picker rest, cls =>
      match schema.field? cls name with
      | Option.none => .error (.invalidMethod path (.unknownField (schema.className cls) name))
      | some field => do
          picker.check schema path field
          rest.check schema path cls

end

end EntityResolver
