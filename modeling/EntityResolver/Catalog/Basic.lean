import EntityResolver.Catalog.Method

/-!
Catalogs: the methods known for the classes of a schema, checked when they are registered.
-/

set_option autoImplicit false

namespace EntityResolver

structure Catalog where
  schema : Schema
  /-- In order of registration; earlier ones win ties. -/
  getters : List Getter
  lists : List ListMethod
  searches : List SearchMethod
  currentUser : Option CurrentUserMethod
  /-- The path of the call that tells the time. -/
  serverTime : Option String

inductive Registration where
  | getter (method : Getter)
  | list (method : ListMethod)
  | search (method : SearchMethod)
  | currentUser (method : CurrentUserMethod)
  | serverTime (path : String)

namespace Catalog

def empty (schema : Schema) : Catalog :=
  ⟨schema, [], [], [], none, none⟩

def gettersOf (catalog : Catalog) (cls : ClassId) : List Getter :=
  catalog.getters.filter fun getter => getter.cls == cls

def listMethod? (catalog : Catalog) (cls : ClassId) (domain : String) : Option ListMethod :=
  catalog.lists.find? fun method => method.cls == cls && method.domain == domain

def searchMethod? (catalog : Catalog) (cls : ClassId) : Option SearchMethod :=
  catalog.searches.find? fun method => method.cls == cls

def listsOf (catalog : Catalog) (cls : ClassId) : List ListMethod :=
  catalog.lists.filter fun method => method.cls == cls

def listDomains (catalog : Catalog) (cls : ClassId) : List String :=
  (catalog.listsOf cls).map ListMethod.domain

def summary (catalog : Catalog) : String :=
  "Catalog \x7b getters: " ++ toString catalog.getters.length ++ ", lists: " ++
    toString catalog.lists.length ++ ", searches: " ++ toString catalog.searches.length ++ " \x7d"

def refuse {α : Type} (path : String) (fault : MethodFault) : Except ResolveError α :=
  .error (.invalidMethod path fault)

/-- A getter supplies fields, and each is a field of its class that its picker fits. -/
def checkGetter (schema : Schema) (getter : Getter) : Except ResolveError Unit :=
  if getter.supplied.isEmpty then refuse getter.path .suppliesNothing
  else
    match getter.supplied.find? fun name => (schema.field? getter.cls name).isNone with
    | some name => refuse getter.path (.unknownField (schema.className getter.cls) name)
    | none => getter.checkPickers schema

def checkList (schema : Schema) (method : ListMethod) : Except ResolveError Unit :=
  if method.steps.isEmpty then refuse method.path .emptyListPath
  else method.pickers.fields.check schema method.path method.cls

def checkSearch (schema : Schema) (method : SearchMethod) : Except ResolveError Unit := do
  let (_, field) ← method.itemField schema
  method.picker.check schema method.path field

def checkCurrentUser (schema : Schema) (method : CurrentUserMethod) : Except ResolveError Unit :=
  method.pickers.fields.check schema method.path method.cls

/-- Adds a method that passes its check. A class has one list method per domain and one search
method, and a catalog has one method for the current user. -/
def register (catalog : Catalog) : Registration → Except ResolveError Catalog
  | .getter method => do
      checkGetter catalog.schema method
      return { catalog with getters := catalog.getters ++ [method] }
  | .list method => do
      checkList catalog.schema method
      if (catalog.listMethod? method.cls method.domain).isSome then
        refuse method.path (.repeatedDomain method.domain)
      else return { catalog with lists := catalog.lists ++ [method] }
  | .search method => do
      checkSearch catalog.schema method
      if (catalog.searchMethod? method.cls).isSome then refuse method.path .repeatedSearch
      else return { catalog with searches := catalog.searches ++ [method] }
  | .currentUser method => do
      checkCurrentUser catalog.schema method
      if catalog.currentUser.isSome then refuse method.path .repeatedCurrentUser
      else return { catalog with currentUser := some method }
  | .serverTime path => return { catalog with serverTime := some path }

/-- The catalog of a row of methods, or the error of the first one that is refused. -/
def ofRegistrations (schema : Schema) (registrations : List Registration) :
    Except ResolveError Catalog :=
  registrations.foldlM register (empty schema)

end Catalog

end EntityResolver
