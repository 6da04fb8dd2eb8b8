import EntityResolver.Schema.Basic
import EntityResolver.Value.Error
import EntityResolver.Value.Field

/-!
Entities as trees: an entity holds the values of the fields loaded for it, and these hold the
entities that they refer to.
-/

set_option autoImplicit false

namespace EntityResolver

structure Entity where
  cls : ClassId
  className : String
  /-- Without an id, the remote has no such entity. -/
  id : Option String
  fields : List (String × FieldValue Entity)

namespace Entity

def bare (cls : ClassId) (className : String) (id : Option String) : Entity :=
  ⟨cls, className, id, []⟩

instance : Inhabited Entity := ⟨bare ⟨0⟩ "" none⟩

def isPresent (entity : Entity) : Bool :=
  entity.id.isSome

def isLoaded (entity : Entity) (name : String) : Bool :=
  OrderedMap.contains entity.fields name

def get (entity : Entity) (name : String) : Except ValueError (FieldValue Entity) :=
  match OrderedMap.get? entity.fields name with
  | some value => .ok value
  | none => .error (.fieldNotLoaded entity.className name)

def set (entity : Entity) (name : String) (value : FieldValue Entity) : Entity :=
  { entity with fields := OrderedMap.set entity.fields name value }

mutual

/-- The document that shows an entity: its class, its id, and the loaded fields in order, less
those that the response did not carry. -/
def document : Entity → Json
  | ⟨_, className, id, fields⟩ =>
      .object (("class", .str className) :: ("id", (id.map Json.str).getD .null) ::
        documentFields fields)

def documentFields : List (String × FieldValue Entity) → List (String × Json)
  | [] => []
  | (name, value) :: rest =>
      if value.isMissing then documentFields rest
      else (name, documentValue value) :: documentFields rest

def documentValue : FieldValue Entity → Json
  | .missing => .null
  | .scalar value => value.document
  | .entity entity => document entity
  | .optional none => .null
  | .optional (some entity) => document entity
  | .list entities => .array (documentList entities)
  | .map entities => .object (documentMap entities)

def documentList : List Entity → List Json
  | [] => []
  | entity :: rest => document entity :: documentList rest

def documentMap : List (String × Entity) → List (String × Json)
  | [] => []
  | (key, entity) :: rest => (key, document entity) :: documentMap rest

end

def documentById (entities : List (String × Entity)) : Json :=
  .object (documentMap entities)

def documentOfAll (entities : List Entity) : Json :=
  .array (documentList entities)

end Entity

/-- The document that shows a value whose entities are referred to by id. -/
def FieldValue.documentOfIds : FieldValue String → Json
  | .missing => .null
  | .scalar value => value.document
  | .entity id => .str id
  | .optional id => (id.map Json.str).getD .null
  | .list ids => .array (ids.map Json.str)
  | .map ids => .object (ids.map fun (key, id) => (key, .str id))

end EntityResolver
