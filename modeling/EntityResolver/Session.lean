import EntityResolver.Run.Round

/-!
Sessions: getting, listing and searching entities of a catalog, one run per request.
-/

set_option autoImplicit false

namespace EntityResolver

structure Session where
  catalog : Catalog
  remote : Remote
  lang : Lang := .pl
  /-- After how many rounds a run is given up. -/
  roundLimit : Nat := twoTo 32

structure SessionState where
  /-- The calls made, in order. -/
  calls : List Call := []
  /-- The costs of the last run that came to its end. -/
  lastRun : RunStats := {}

/-- A request. It may fail, and the calls that it made before it failed are kept. -/
abbrev Request : Type → Type := EStateM ResolveError SessionState

structure SearchResult where
  entity : Entity
  highlight : MatchText

def SearchResult.document (result : SearchResult) : Json :=
  .object [("entity", result.entity.document), ("highlight", Scalar.matchDocument result.highlight)]

def SearchResult.documentOfAll (results : List SearchResult) : Json :=
  .array (results.map document)

namespace Session

variable {α β : Type}

def context (session : Session) : RunContext :=
  ⟨session.catalog, session.remote, session.lang, session.roundLimit⟩

/-- The steps of a new run of at most `limit` rounds: what is wanted, the run itself, and what is
taken from its end. -/
def stepsWithin (limit : Nat) (want : Run α) (finish : α → Run β) : Run β := do
  let wanted ← want
  let _ ← Run.executeWithin limit
  finish wanted

/-- The steps of a new run of as many rounds as it may have. -/
def steps (want : Run α) (finish : α → Run β) : Run β := do
  stepsWithin (← read).roundLimit want finish

def run (session : Session) (want : Run α) (finish : α → Run β) : Request β := fun state =>
  match (steps want finish).run session.context { calls := state.calls } with
  | .ok result ended => .ok result ⟨ended.calls, ended.stats⟩
  | .error error ended => .error error { state with calls := ended.calls }

def tree (entity : Handle) : Run Entity := do
  return (← get).materialize (← Run.schema) entity

def trees : List Handle → Run (List Entity)
  | [] => pure []
  | entity :: rest => do
      let first ← tree entity
      let others ← trees rest
      return first :: others

/-- The selector that a text writes for a class; without a text it is the default selector. -/
def classSelector (session : Session) (cls : ClassId) (fields : Option String) :
    Except ResolveError Selector :=
  let schema := session.catalog.schema
  match fields with
  | none => .ok (schema.defaultSelector cls)
  | some text =>
      match schema.class? cls with
      | some cls => liftError .selector (Selector.parse schema cls text)
      | none => .ok .empty

/-- The class with a name, and the selector that a text writes for it. -/
def selector (session : Session) (cls : String) (fields : Option String) :
    Except ResolveError (ClassId × Selector) := do
  let id ← liftError .schema (session.catalog.schema.classId cls)
  return (id, ← session.classSelector id fields)

def getWith (session : Session) (cls : ClassId) (id : String) (selector : Selector) :
    Request Entity := do
  let entity ← session.run (Run.spawn cls id selector [] true) tree
  if entity.isPresent then return entity else throw (.entityNotFound entity.className id)

def get (session : Session) (cls id : String) (fields : Option String) : Request Entity := do
  let (cls, selector) ← ofExcept (session.selector cls fields)
  session.getWith cls id selector

def spawnRoots (cls : ClassId) (selector : Selector) : List String → Run (List (String × Handle))
  | [] => pure []
  | id :: rest => do
      let entity ← Run.spawn cls id selector [] true
      let entities ← spawnRoots cls selector rest
      return (id, entity) :: entities

def presentTrees : List (String × Handle) → Run (List (String × Entity))
  | [] => pure []
  | (id, handle) :: rest => do
      let entity ← tree handle
      let entities ← presentTrees rest
      return if entity.isPresent then (id, entity) :: entities else entities

/-- Those entities that exist, by id, in the order in which ids first occur. -/
def getManyWith (session : Session) (cls : ClassId) (ids : List String) (selector : Selector) :
    Request (List (String × Entity)) :=
  session.run (spawnRoots cls selector (Candidacy.distinct ids)) presentTrees

def getMany (session : Session) (cls : String) (ids : List String) (fields : Option String) :
    Request (List (String × Entity)) := do
  let (cls, selector) ← ofExcept (session.selector cls fields)
  session.getManyWith cls ids selector

def outputTrees (slot : Nat) : Run (List Entity) := do
  trees (← Run.takeOutput slot)

def listWith (session : Session) (cls : ClassId) (domain : String) (selector : Selector) :
    Request (List Entity) :=
  session.run (Run.wantList cls domain selector) outputTrees

def list (session : Session) (cls domain : String) (fields : Option String) :
    Request (List Entity) := do
  let (cls, selector) ← ofExcept (session.selector cls fields)
  session.listWith cls domain selector

/-- The results that the items of a search hold. An item without an entity holds none. -/
def resultsOf (foundField : String) : List Entity → Except ResolveError (List SearchResult)
  | [] => .ok []
  | item :: rest => do
      let found :=
        match item.get foundField with
        | .ok value => value.asEntity?
        | .error _ => none
      let highlight : MatchText :=
        match (← liftError .value (item.get matchField)).asScalar? with
        | some (.matchText parts) => parts
        | _ => []
      let others ← resultsOf foundField rest
      return match found with
        | some entity => ⟨entity, highlight⟩ :: others
        | none => others

def searchWith (session : Session) (cls : ClassId) (query : String) (selector : Selector) :
    Request (List SearchResult) := do
  let schema := session.catalog.schema
  let items ← session.run (Run.wantSearch cls query selector) outputTrees
  match ((schema.class? cls).bind EntityClass.searchItem).bind schema.class? with
  | none => throw (.noSearchMethod (schema.className cls))
  | some itemClass => ofExcept (resultsOf (itemClass.foundField.getD "") items)

def search (session : Session) (cls query : String) (fields : Option String) :
    Request (List SearchResult) := do
  let (cls, selector) ← ofExcept (session.selector cls fields)
  session.searchWith cls query selector

/-- The user on whose behalf calls are made. -/
def currentUser (session : Session) (fields : Option String) : Request Entity := do
  match session.catalog.currentUser with
  | none => throw (.missingMethod .currentUser)
  | some method =>
      let selector ← ofExcept (session.classSelector method.cls fields)
      session.run (method.load selector) tree

def now (session : Session) : Request Calendar.DateTime := do
  match session.catalog.serverTime with
  | none => throw (.missingMethod .serverTime)
  | some path =>
      let request : Call := ⟨path, []⟩
      let earlier := (← getThe SessionState).calls
      modify fun state => { state with calls := state.calls ++ [request] }
      match session.remote earlier request with
      | .error failure => throw (.remote failure)
      | .ok response =>
          match response.asText?.bind Calendar.DateTime.read? with
          | some moment => return moment
          | none => throw (.malformed path (.badValue .dateTime response.render))

end Session

end EntityResolver
