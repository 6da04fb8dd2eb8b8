import EntityResolver.Value.Entity

/-!
Trees of entities without the scalars of some fields.
-/

set_option autoImplicit false

namespace EntityResolver

mutual

/-- The tree with null in the place of the scalars that the fields hold, on all levels. -/
def Entity.muted (mute : List (ClassId × String)) : Entity → Entity
  | ⟨cls, className, id, fields⟩ => ⟨cls, className, id, Entity.mutedFields mute cls fields⟩

def Entity.mutedFields (mute : List (ClassId × String)) (cls : ClassId) :
    List (String × FieldValue Entity) → List (String × FieldValue Entity)
  | [] => []
  | (name, value) :: rest =>
      (name, Entity.mutedValue mute cls name value) :: Entity.mutedFields mute cls rest

def Entity.mutedValue (mute : List (ClassId × String)) (cls : ClassId) (name : String) :
    FieldValue Entity → FieldValue Entity
  | .missing => .missing
  | .scalar value => .scalar (if (cls, name) ∈ mute then .null else value)
  | .entity entity => .entity (Entity.muted mute entity)
  | .optional none => .optional none
  | .optional (some entity) => .optional (some (Entity.muted mute entity))
  | .list entities => .list (Entity.mutedList mute entities)
  | .map entities => .map (Entity.mutedMap mute entities)

def Entity.mutedList (mute : List (ClassId × String)) : List Entity → List Entity
  | [] => []
  | entity :: rest => Entity.muted mute entity :: Entity.mutedList mute rest

def Entity.mutedMap (mute : List (ClassId × String)) : List (String × Entity) →
    List (String × Entity)
  | [] => []
  | (key, entity) :: rest => (key, Entity.muted mute entity) :: Entity.mutedMap mute rest

end

namespace Entity

variable {mute : List (ClassId × String)} {ε : Type}

theorem mutedList_eq_map (entities : List Entity) :
    mutedList mute entities = entities.map (muted mute) := by
  induction entities with
  | nil => rfl
  | cons entity rest inductionHypothesis => simp [mutedList, inductionHypothesis]

theorem mutedMap_eq_map (entities : List (String × Entity)) :
    mutedMap mute entities = entities.map fun (key, entity) => (key, muted mute entity) := by
  induction entities with
  | nil => rfl
  | cons entry rest inductionHypothesis => simp [mutedMap, inductionHypothesis]

theorem muted_id (entity : Entity) : (entity.muted mute).id = entity.id := by
  cases entity
  rw [muted]

theorem muted_className (entity : Entity) : (entity.muted mute).className = entity.className := by
  cases entity
  rw [muted]

theorem isPresent_of_muted {one other : Entity} (same : other.muted mute = one.muted mute) :
    other.isPresent = one.isPresent := by
  have sameId := congrArg Entity.id same
  rw [muted_id, muted_id] at sameId
  unfold isPresent
  rw [sameId]

theorem mutedValue_mapEntities (cls : ClassId) (name : String) (value : FieldValue ε)
    {change other : ε → Entity} (same : ∀ one, (other one).muted mute = (change one).muted mute) :
    mutedValue mute cls name (value.mapEntities other) =
      mutedValue mute cls name (value.mapEntities change) := by
  cases value with
  | missing | scalar _ => rfl
  | entity one => simp [FieldValue.mapEntities, mutedValue, same]
  | optional one? => cases one? <;> simp [FieldValue.mapEntities, mutedValue, same]
  | list ones => simp [FieldValue.mapEntities, mutedValue, mutedList_eq_map, same]
  | map ones => simp [FieldValue.mapEntities, mutedValue, mutedMap_eq_map, same]

end Entity

end EntityResolver
