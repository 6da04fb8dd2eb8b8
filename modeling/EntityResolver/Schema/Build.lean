import EntityResolver.Schema.Basic
import EntityResolver.Text.SnakeCase

/-!
Building a schema from declarations, in which classes refer to each other by name and in any order.

Building adds the companion of each class that can be searched, looks the names up and works out
the default selectors. It fails on a class or field declared twice, on a reference to no class, and
on default fields that refer to each other in a circle.
-/

set_option autoImplicit false

namespace EntityResolver

structure FieldDecl where
  name : String
  kind : FieldKind String
  isDefault : Bool := false
  isVariant : Bool := false
  deriving DecidableEq, Repr

structure ClassDecl where
  name : String
  fields : List FieldDecl
  isSearchable : Bool := false
  deriving DecidableEq, Repr

def companionName (name : String) : String :=
  name ++ "SearchItem"

/-- The companion of a class: the entity found, in a field that `naming` names after its class, and
the text that matched. -/
def ClassDecl.companion (naming : String → String) (decl : ClassDecl) : ClassDecl where
  name := companionName decl.name
  fields := [
    { name := naming decl.name, kind := .entity decl.name },
    { name := matchField, kind := .scalar .matchText }]

/-- The declarations with the companions of searchable classes behind them. -/
def withCompanions (naming : String → String) (decls : List ClassDecl) : List ClassDecl :=
  decls ++ (decls.filter ClassDecl.isSearchable).map (ClassDecl.companion naming)

def firstRepeated? (seen : List String) : List String → Option String
  | [] => none
  | name :: rest => if name ∈ seen then some name else firstRepeated? (name :: seen) rest

def declaredId? (decls : List ClassDecl) (name : String) : Option ClassId :=
  (decls.findIdx? fun decl => decl.name == name).map ClassId.mk

/-- A kind with the names of classes looked up. The name that is no class is the error. -/
def FieldKind.lookUp (decls : List ClassDecl) : FieldKind String → Except String (FieldKind ClassId)
  | .scalar type => .ok (.scalar type)
  | .entity target => (find target).map .entity
  | .optionalEntity target => (find target).map .optionalEntity
  | .entityList target => (find target).map .entityList
  | .entityMap target => (find target).map .entityMap
where
  find (target : String) : Except String ClassId :=
    match declaredId? decls target with
    | some id => .ok id
    | none => .error target

/-- The fields of a class, given the names that precede them. -/
def bindFields (decls : List ClassDecl) (cls : String) (owner : ClassId) (seen : List String) :
    List FieldDecl → Except SchemaError (List Field)
  | [] => .ok []
  | decl :: rest =>
      match decl.kind.lookUp decls with
      | .error target => .error (.unknownReference cls decl.name target)
      | .ok kind =>
          if decl.name ∈ seen then .error (.duplicateField cls decl.name)
          else
            (bindFields decls cls owner (decl.name :: seen) rest).map
              (⟨decl.name, owner, kind, decl.isDefault, decl.isVariant⟩ :: ·)

/-- The field that holds the entity found, if a name is that of a companion. -/
def foundField? (naming : String → String) (decls : List ClassDecl) (name : String) :
    Option String :=
  ((decls.filter ClassDecl.isSearchable).find? fun decl => companionName decl.name == name).map
    fun decl => naming decl.name

def bindClass (naming : String → String) (decls : List ClassDecl) (position : Nat)
    (decl : ClassDecl) : Except SchemaError EntityClass :=
  (bindFields decls decl.name ⟨position⟩ [] decl.fields).map fun fields =>
    { id := ⟨position⟩
      name := decl.name
      fields := fields
      searchItem :=
        if decl.isSearchable then declaredId? decls (companionName decl.name) else none
      foundField := foundField? naming decls decl.name
      defaultSelector := .empty }

def bindClasses (naming : String → String) (decls : List ClassDecl) :
    Nat → List ClassDecl → Except SchemaError (List EntityClass)
  | _, [] => .ok []
  | position, decl :: rest => do
      let cls ← bindClass naming decls position decl
      let classes ← bindClasses naming decls (position + 1) rest
      return cls :: classes

/-- How far the search for default selectors has come: the selectors found, and the classes whose
default fields are being followed, by position. -/
structure DefaultSearch where
  done : List (Option Selector)
  inProgress : List Bool

namespace DefaultSearch

def start (count : Nat) : DefaultSearch :=
  ⟨List.replicate count none, List.replicate count false⟩

def selector? (search : DefaultSearch) (id : ClassId) : Option Selector :=
  search.done[id.index]?.join

def follows (search : DefaultSearch) (id : ClassId) : Bool :=
  search.inProgress[id.index]?.getD false

def follow (search : DefaultSearch) (id : ClassId) : DefaultSearch :=
  { search with inProgress := search.inProgress.set id.index true }

def settle (id : ClassId) (selector : Selector) (search : DefaultSearch) : DefaultSearch where
  done := search.done.set id.index (some selector)
  inProgress := search.inProgress.set id.index false

end DefaultSearch

abbrev SearchDefaults : Type → Type := StateT DefaultSearch (Except SchemaError)

def Field.visitTarget {m : Type → Type} [Monad m] (visit : ClassId → m Selector) (field : Field) :
    m Selector :=
  match field.kind.target? with
  | some target => visit target
  | none => pure .empty

def selectDefaults {m : Type → Type} [Monad m] (visit : ClassId → m Selector) :
    List Field → m Selector
  | [] => pure .empty
  | field :: rest =>
      if field.isDefault then do
        let sub ← field.visitTarget visit
        let others ← selectDefaults visit rest
        return .nested field.name sub others
      else selectDefaults visit rest

def Schema.fieldsOf (schema : Schema) (id : ClassId) : List Field :=
  ((schema.class? id).map EntityClass.fields).getD []

/-- The default selector of a class, which is worked out once. A class that is reached while its own
default fields are followed has them in a circle. Each visit that follows fields marks one more
class, so more fuel than there are classes does not run out. -/
def visitDefaults (schema : Schema) : Nat → ClassId → SearchDefaults Selector
  | 0, id => throw (.defaultCycle (schema.className id))
  | fuel + 1, id => do
      let search ← get
      match search.selector? id with
      | some selector => return selector
      | none =>
          if search.follows id then throw (.defaultCycle (schema.className id))
          else
            set (search.follow id)
            let selector ← selectDefaults (visitDefaults schema fuel) (schema.fieldsOf id)
            modify (DefaultSearch.settle id selector)
            return selector

def computeDefaults (schema : Schema) : Except SchemaError (List Selector) := do
  let count := schema.classes.length
  let visits := schema.classes.mapM fun cls => visitDefaults schema (count + 1) cls.id
  let (_, search) ← visits.run (.start count)
  return search.done.map (·.getD .empty)

def EntityClass.withDefaults (cls : EntityClass) (selector : Selector) : EntityClass :=
  { cls with defaultSelector := selector }

/-- The schema of a list of declarations, with a way to name the field of a companion class for the
entity found. -/
def Schema.ofDeclsNaming (naming : String → String) (declared : List ClassDecl) :
    Except SchemaError Schema := do
  let decls := withCompanions naming declared
  match firstRepeated? [] (decls.map ClassDecl.name) with
  | some name => throw (.duplicateClass name)
  | none =>
      let classes ← bindClasses naming decls 0 decls
      let selectors ← computeDefaults ⟨classes⟩
      return ⟨List.zipWith EntityClass.withDefaults classes selectors⟩

/-- The schema of a list of declarations. The entity found by a search is in a field with the name
of its class in snake case. -/
def Schema.ofDecls : List ClassDecl → Except SchemaError Schema :=
  Schema.ofDeclsNaming Text.snakeCase

end EntityResolver
