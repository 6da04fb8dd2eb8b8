import EntityResolver.Schema.DataType
import EntityResolver.Selector.Basic

/-!
Schemas: classes of entities with their fields.

A field is a scalar or refers to entities of one class. A class that can be searched has a companion
class, whose entities are the items of a search: the entity found and the text that matched.
-/

set_option autoImplicit false

namespace EntityResolver

structure ClassId where
  index : Nat
  deriving DecidableEq, Repr, Inhabited

inductive FieldKind (ρ : Type) where
  | scalar (type : DataType)
  | entity (target : ρ)
  | optionalEntity (target : ρ)
  | entityList (target : ρ)
  | entityMap (target : ρ)
  deriving DecidableEq, Repr

namespace FieldKind

variable {ρ : Type}

def target? : FieldKind ρ → Option ρ
  | .scalar _ => none
  | .entity target | .optionalEntity target | .entityList target | .entityMap target => some target

def isEntity (kind : FieldKind ρ) : Bool :=
  kind.target?.isSome

def label : FieldKind ClassId → String
  | .scalar type => "Scalar(" ++ type.label ++ ")"
  | .entity target => "Entity(" ++ reference target ++ ")"
  | .optionalEntity target => "OptionalEntity(" ++ reference target ++ ")"
  | .entityList target => "EntityList(" ++ reference target ++ ")"
  | .entityMap target => "EntityMap(" ++ reference target ++ ")"
where
  reference (target : ClassId) : String :=
    "EntityClassId(" ++ toString target.index ++ ")"

end FieldKind

structure Field where
  name : String
  owner : ClassId
  kind : FieldKind ClassId
  /-- Selected where no fields are named. -/
  isDefault : Bool
  /-- May be absent from a response. -/
  isVariant : Bool
  deriving DecidableEq, Repr

structure EntityClass where
  id : ClassId
  name : String
  /-- In declaration order, with distinct names. -/
  fields : List Field
  /-- The companion class of a class that can be searched. -/
  searchItem : Option ClassId
  /-- On a companion class, the field that holds the entity found. -/
  foundField : Option String
  /-- The default fields, each with the default fields of the class it refers to. -/
  defaultSelector : Selector
  deriving DecidableEq, Repr

def EntityClass.field? (cls : EntityClass) (name : String) : Option Field :=
  cls.fields.find? fun field => field.name == name

def EntityClass.defaultNames (cls : EntityClass) : List String :=
  (cls.fields.filter Field.isDefault).map Field.name

/-- The field of a companion class that holds the text that matched. -/
def matchField : String := "match"

/-- The classes of a schema, declared ones first, each at the position that its id says. -/
structure Schema where
  classes : List EntityClass
  deriving DecidableEq, Repr, Inhabited

inductive SchemaError where
  | duplicateField (cls field : String)
  | duplicateClass (name : String)
  | unknownReference (cls field target : String)
  | defaultCycle (cls : String)
  | unknownClass (name : String)
  deriving DecidableEq, Repr

def SchemaError.message : SchemaError → String
  | .duplicateField cls field =>
      "field '" ++ field ++ "' is already bound to entity class '" ++ cls ++ "'"
  | .duplicateClass name => "entity class '" ++ name ++ "' is declared more than once"
  | .unknownReference cls field target =>
      "field '" ++ cls ++ "." ++ field ++ "' references unknown entity class '" ++ target ++ "'"
  | .defaultCycle cls => "default fields of entity class '" ++ cls ++ "' expand without end"
  | .unknownClass name => "unknown entity class '" ++ name ++ "'"

namespace Schema

def class? (schema : Schema) (id : ClassId) : Option EntityClass :=
  schema.classes[id.index]?

def className (schema : Schema) (id : ClassId) : String :=
  ((schema.class? id).map EntityClass.name).getD ""

def classNamed (schema : Schema) (name : String) : Except SchemaError EntityClass :=
  match schema.classes.find? fun cls => cls.name == name with
  | some cls => .ok cls
  | none => .error (.unknownClass name)

def classId (schema : Schema) (name : String) : Except SchemaError ClassId :=
  (schema.classNamed name).map EntityClass.id

def field? (schema : Schema) (id : ClassId) (name : String) : Option Field :=
  (schema.class? id).bind fun cls => cls.field? name

def defaultSelector (schema : Schema) (id : ClassId) : Selector :=
  ((schema.class? id).map EntityClass.defaultSelector).getD .empty

/-- What a field is selected with when nothing is said about it. -/
def defaultSubselector (schema : Schema) (field : Field) : Selector :=
  match field.kind.target? with
  | some target => schema.defaultSelector target
  | none => .empty

end Schema

end EntityResolver
