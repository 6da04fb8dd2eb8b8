import EntityResolver.Catalog.Basic

/-!
The description of a catalog: its classes with their fields, and the ways to get at entities.
-/

set_option autoImplicit false

namespace EntityResolver.Catalog

/-- What a field holds: a type, or a class with a mark for how many entities of it. -/
def describeKind (schema : Schema) : FieldKind ClassId → String
  | .scalar type => type.label
  | .entity target => schema.className target
  | .optionalEntity target => schema.className target ++ "?"
  | .entityList target => "[" ++ schema.className target ++ "]"
  | .entityMap target => "\x7b" ++ schema.className target ++ "\x7d"

def describeField (schema : Schema) (field : Field) : Json :=
  .object [("default", .bool field.isDefault), ("kind", .str (describeKind schema field.kind)),
    ("name", .str field.name), ("variant", .bool field.isVariant)]

def describeClass (catalog : Catalog) (cls : EntityClass) : Json :=
  .object [("fields", .array (cls.fields.map (describeField catalog.schema))),
    ("getters", .array ((catalog.gettersOf cls.id).map fun getter => .str getter.path)),
    ("list_domains", .array ((catalog.listDomains cls.id).map .str)), ("name", .str cls.name),
    ("searchable", .bool (catalog.searchMethod? cls.id).isSome)]

def describe (catalog : Catalog) : Json :=
  .array (catalog.schema.classes.map catalog.describeClass)

end EntityResolver.Catalog
