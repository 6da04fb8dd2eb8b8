import EntityResolver.Catalog.Basic
import EntityResolver.Lang
import EntityResolver.Value.Entity

/-!
The state of a run, and the targets that it works on.

A run keeps the entities that it has come across in an arena and refers to them by handle. A target
is a wish for fields of one entity; the targets that wait are kept in pools, one for each class in
the order in which classes came up. The arena only grows, and a target is gone when it has no
unresolved field left.
-/

set_option autoImplicit false

namespace EntityResolver

structure Handle where
  index : Nat
  deriving DecidableEq, Repr, Inhabited

abbrev FieldValues : Type := OrderedMap (FieldValue Handle)

structure EntityRecord where
  cls : ClassId
  /-- `none` once the remote has no such entity. -/
  id : Option String
  values : FieldValues

structure Origin where
  entity : Handle
  cls : ClassId
  id : String
  selector : Selector
  /-- The entity need not exist. -/
  isWeak : Bool

/-- A wish for fields of an entity. -/
structure Target where
  entity : Handle
  cls : ClassId
  id : String
  /-- What was selected when the wish came up. -/
  selector : Selector
  /-- Fields whose values are still wanted. -/
  unresolved : List String
  /-- The entity need not exist. -/
  isWeak : Bool

namespace Target

def isActive (target : Target) : Bool :=
  !target.unresolved.isEmpty

/-- The unresolved fields that are among the given ones. -/
def openAmong (target : Target) (names : List String) : List String :=
  target.unresolved.filter fun name => names.contains name

/-- The same fields are unresolved, whatever their order. -/
def sameUnresolved (first second : Target) : Bool :=
  first.unresolved.length == second.unresolved.length &&
    first.unresolved.all second.unresolved.contains

/-- Both targets were wished for alike and lack the same fields. -/
def isAlike (first second : Target) : Bool :=
  first.sameUnresolved second && first.selector.same second.selector

end Target

/-- What has to be done before the first round. The entities go into the output of a slot. -/
inductive Prerequisite where
  | list (cls : ClassId) (domain : String) (selector : Selector) (slot : Nat)
  | search (cls : ClassId) (query : String) (selector : Selector) (slot : Nat)

structure RunStats where
  rounds : Nat := 0
  remoteCalls : Nat := 0
  cacheHits : Nat := 0
  deriving DecidableEq, Repr

/-- A value that the run has come across: the latest for its entity and field. -/
structure CachedValue where
  cls : ClassId
  id : String
  field : String
  value : FieldValue String

inductive Source where
  /-- A response to a call, or what an entity is spawned with. -/
  | response
  /-- What the run has come across before. -/
  | cache
  deriving DecidableEq, Repr

inductive Event where
  /-- An entity comes in. -/
  | entered (record : EntityRecord)
  /-- A field of the target's entity gets its value. -/
  | resolved (source : Source) (target : Target) (name : String) (value : FieldValue Handle)
  /-- The target's entity does not exist, and loses its id. -/
  | lost (target : Target)

structure RunState where
  arena : Array EntityRecord := #[]
  /-- Active targets by class. No pool is empty between rounds. -/
  pools : List (ClassId × List Target) := []
  /-- Targets that came up since the pools were last filled. -/
  spawned : List Target := []
  prerequisites : List Prerequisite := []
  /-- The entities of each slot. -/
  outputs : Array (List Handle) := #[]
  /-- The latest values first. -/
  cache : List CachedValue := []
  stats : RunStats := {}
  /-- The calls made, in order. -/
  calls : List Call := []
  /-- The entities spawned, the latest first. A record of the run, on which nothing depends. -/
  origins : List Origin := []
  /-- What happened to the arena, the latest first. A record of the run, on which nothing
  depends. -/
  events : List Event := []

/-- What a run is given and does not change. -/
structure RunContext where
  catalog : Catalog
  remote : Remote
  lang : Lang
  /-- After how many rounds a run is given up. -/
  roundLimit : Nat

/-- A step of a run. It may fail, and what it did before it failed is kept. -/
abbrev Run : Type → Type := ReaderT RunContext (EStateM ResolveError RunState)

namespace Run

def schema : Run Schema := do
  return (← read).catalog.schema

def className (cls : ClassId) : Run String := do
  return (← schema).className cls

def call (path : String) (params : Params) : Run Reply := do
  let remote := (← read).remote
  let request : Call := ⟨path, params⟩
  let earlier := (← get).calls
  modify fun state =>
    { state with
      calls := state.calls ++ [request]
      stats := { state.stats with remoteCalls := state.stats.remoteCalls + 1 } }
  return remote earlier request

def callOrFail (path : String) (params : Params) : Run Json := do
  match ← call path params with
  | .ok response => pure response
  | .error failure => throw (.remote failure)

def alloc (cls : ClassId) (id : Option String) (values : FieldValues) : Run Handle := do
  let handle : Handle := ⟨(← get).arena.size⟩
  modify fun state =>
    { state with
      arena := state.arena.push ⟨cls, id, values⟩
      events := .entered ⟨cls, id, values⟩ :: state.events }
  return handle

/-- Changes what is known of an entity, as an event says. -/
def update (event : Event) (entity : Handle) (change : EntityRecord → EntityRecord) : Run Unit :=
  modify fun state =>
    { state with
      arena := state.arena.modify entity.index change
      events := event :: state.events }

end Run

namespace RunState

def record? (state : RunState) (entity : Handle) : Option EntityRecord :=
  state.arena[entity.index]?

def idOf? (state : RunState) (entity : Handle) : Option String :=
  (state.record? entity).bind EntityRecord.id

def cached? (state : RunState) (cls : ClassId) (id field : String) : Option (FieldValue String) :=
  (state.cache.find? fun entry =>
    entry.cls == cls && entry.id == id && entry.field == field).map CachedValue.value

/-- The entity as a tree. `depth` bounds the references that are followed one after the other. -/
def tree (schema : Schema) (state : RunState) : Nat → Handle → Entity
  | 0, entity =>
      match state.record? entity with
      | some record => .bare record.cls (schema.className record.cls) record.id
      | none => .bare ⟨0⟩ "" none
  | depth + 1, entity =>
      match state.record? entity with
      | some record =>
          { cls := record.cls
            className := schema.className record.cls
            id := record.id
            fields := record.values.map fun (name, value) =>
              (name, value.mapEntities (tree schema state depth)) }
      | none => .bare ⟨0⟩ "" none

/-- The entity as a tree. Entities do not refer to each other in a circle, so that a row of
references is shorter than the arena. -/
def materialize (schema : Schema) (state : RunState) (entity : Handle) : Entity :=
  state.tree schema state.arena.size entity

end RunState

end EntityResolver
