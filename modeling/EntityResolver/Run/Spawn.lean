import EntityResolver.Run.Basic

/-!
Resolving fields of targets, and spawning new targets.
-/

set_option autoImplicit false

namespace EntityResolver.Run

/-- A value with the ids of its entities; there is none if one of them does not exist. -/
def idsOf (state : RunState) (value : FieldValue Handle) : Option (FieldValue String) :=
  value.traverseEntities (m := Option) state.idOf?

/-- The form in which the value of a field is kept for later targets of the same entity. The value
of a scalar field that was selected with fields below it, and a value that refers to an entity that
does not exist, are not kept. -/
def cacheable? (schema : Schema) (state : RunState) (target : Target) (name : String)
    (value : FieldValue Handle) : Option (FieldValue String) :=
  match schema.field? target.cls name with
  | none => none
  | some field =>
      if field.kind.isEntity then idsOf state value
      else if (target.selector.subselector? name).any fun sub => !sub.isEmpty then none
      else some (value.mapEntities fun _ => "")

/-- Keeps the value of a field for later targets of the same entity. -/
def cacheValue (target : Target) (name : String) (value : FieldValue Handle) : Run Unit := do
  let schema ← schema
  modify fun state =>
    match cacheable? schema state target name value with
    | some kept => { state with cache := ⟨target.cls, target.id, name, kept⟩ :: state.cache }
    | none => state

/-- Stores the value of a field. The entity is known to exist from then on. -/
def resolve (source : Source) (target : Target) (name : String) (value : FieldValue Handle) :
    Run Target := do
  update (.resolved source target name value) target.entity fun record =>
    { record with values := record.values.set name value }
  return { target with unresolved := target.unresolved.erase name, isWeak := false }

/-- Stores the value that a response holds for a field, and keeps it for later targets. -/
def resolveAndCache (target : Target) (name : String) (value : FieldValue Handle) : Run Target := do
  cacheValue target name value
  resolve .response target name value

/-- Resolves those of the named fields that have a value. -/
def resolveGiven (values : FieldValues) : List String → Target → Run Target
  | [], target => pure target
  | name :: rest, target => do
      match values.get? name with
      | some value => resolveGiven values rest (← resolveAndCache target name value)
      | none => resolveGiven values rest target

/-- Creates an entity, with a target for those of the selected fields that have no value yet. -/
def spawn (cls : ClassId) (id : String) (selector : Selector) (values : FieldValues)
    (isWeak : Bool) : Run Handle := do
  let entity ← alloc cls (some id) []
  modify fun state =>
    { state with origins := ⟨entity, cls, id, selector, isWeak⟩ :: state.origins }
  let target ← resolveGiven values selector.names
    { entity, cls, id, selector, unresolved := selector.names, isWeak }
  if target.isActive then
    modify fun state => { state with spawned := state.spawned ++ [target] }
  return entity

def newSlot : Run Nat := do
  let slot := (← get).outputs.size
  modify fun state => { state with outputs := state.outputs.push [] }
  return slot

/-- Wants the entities of a class in a domain. They are in the output of the slot after the run. -/
def wantList (cls : ClassId) (domain : String) (selector : Selector) : Run Nat := do
  let slot ← newSlot
  modify fun state =>
    { state with prerequisites := state.prerequisites ++ [.list cls domain selector slot] }
  return slot

/-- Wants the items of a search. They are in the output of the slot after the run. -/
def wantSearch (cls : ClassId) (query : String) (selector : Selector) : Run Nat := do
  let slot ← newSlot
  modify fun state =>
    { state with prerequisites := state.prerequisites ++ [.search cls query selector slot] }
  return slot

/-- Takes the output of a slot, which is empty after that. -/
def takeOutput (slot : Nat) : Run (List Handle) := do
  let output := ((← get).outputs[slot]?).getD []
  modify fun state => { state with outputs := state.outputs.modify slot fun _ => [] }
  return output

end EntityResolver.Run
