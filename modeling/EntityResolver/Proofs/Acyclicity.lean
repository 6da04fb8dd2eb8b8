import EntityResolver.Proofs.Recursion
import EntityResolver.Proofs.Run.Arena
import Mathlib.Logic.Relation

/-!
# Entities never refer to each other in a circle

Whatever the remote answers, references lead to entities of the arena and come to an end, at every
point of a run. So the tree of an entity can be told from the arena, although what the remote knows
may well go in circles.
-/

set_option autoImplicit false

namespace EntityResolver

def References (arena : Array EntityRecord) (holder held : Handle) : Prop :=
  ∃ record, arena[holder.index]? = some record ∧
    ∃ name value, (name, value) ∈ record.values ∧ held ∈ value.entities

/-- The tree is all that references lead to from the entity, and the arena has every entity
of it. -/
inductive Spans (schema : Schema) (arena : Array EntityRecord) : Handle → Entity → Prop where
  | intro {entity : Handle} {record : EntityRecord} {trees : Handle → Entity}
      (found : arena[entity.index]? = some record)
      (below : ∀ name value, (name, value) ∈ record.values → ∀ inner ∈ value.entities,
        Spans schema arena inner (trees inner)) :
      Spans schema arena entity
        { cls := record.cls
          className := schema.className record.cls
          id := record.id
          fields := record.values.map fun (name, value) => (name, value.mapEntities trees) }

/-- References stay in the arena and never lead back, and what entities become is all that they lead
to. -/
structure RunState.Grounded (schema : Schema) (state : RunState) : Prop where
  bounded : ∀ holder held, References state.arena holder held → held.index < state.arena.size
  acyclic : ∀ entity, ¬ Relation.TransGen (References state.arena) entity entity
  spans : ∀ entity, entity.index < state.arena.size →
    Spans schema state.arena entity (state.materialize schema entity)

/-- The log tells every arena that the run has had, and all of them were grounded. What the run has
given out is in the arena. -/
structure RunState.AlwaysGrounded (schema : Schema) (state : RunState) : Prop where
  replays : state.arena = arenaAfter state.events
  always : ∀ past, past <:+ state.events → ∀ seen : RunState, seen.arena = arenaAfter past →
    seen.Grounded schema
  origins : ∀ origin ∈ state.origins, origin.entity.index < state.arena.size
  outputs : ∀ entities ∈ state.outputs, ∀ entity ∈ entities, entity.index < state.arena.size

namespace Falls

variable {schema : Schema} {state : RunState} {arena : Array EntityRecord} {rank : Nat → Nat}
variable {holder held : Handle}

theorem of_references (falls : Falls arena rank) (references : References arena holder held) :
    held.index < arena.size ∧ rank held.index < rank holder.index := by
  obtain ⟨record, found, name, value, stored, member⟩ := references
  exact falls.falls holder.index record found name value stored held member

theorem of_transGen (falls : Falls arena rank)
    (leads : Relation.TransGen (References arena) holder held) :
    rank held.index < rank holder.index := by
  induction leads with
  | single references => exact (falls.of_references references).2
  | tail _ references inductionHypothesis =>
      exact (falls.of_references references).2.trans inductionHypothesis

theorem spans_tree (falls : Falls state.arena rank) {depth : Nat} {entity : Handle}
    (inside : entity.index < state.arena.size) (deep : rank entity.index < depth) :
    Spans schema state.arena entity (state.tree schema depth entity) := by
  induction depth generalizing entity with
  | zero => exact absurd deep (Nat.not_lt_zero _)
  | succ depth inductionHypothesis =>
      have found : state.record? entity = some state.arena[entity.index] :=
        Array.getElem?_eq_getElem inside
      simp only [RunState.tree, found]
      refine .intro found fun name value stored inner member => ?_
      obtain ⟨insideToo, less⟩ := falls.falls entity.index _ found name value stored inner member
      exact inductionHypothesis insideToo (by omega)

theorem grounded (falls : Falls state.arena rank) : state.Grounded schema where
  bounded _ _ references := (falls.of_references references).1
  acyclic _ circle := (falls.of_transGen circle).false
  spans entity inside := falls.spans_tree inside (falls.bounded entity.index inside)

end Falls

namespace Run

variable {context : RunContext} {state : RunState}

theorem alwaysGrounded_of_tracked (tracked : Tracked [] 0 state) :
    state.AlwaysGrounded context.catalog.schema := by
  refine ⟨tracked.ranked.replays, fun past earlier seen arena => ?_, tracked.holding.origins,
    tracked.holding.outputs⟩
  obtain ⟨rank, falls⟩ := tracked.ranked.always past (List.nil_suffix) earlier
  rw [← arena] at falls
  exact falls.grounded

/-- Whatever the remote answers and however a run ends, entities have never referred to each other
in a circle, and never to what is not in the arena. -/
theorem alwaysGrounded_of_run (context : RunContext) (demands : List Demand) (limit : Nat)
    (earlier : List Call) (ended : RunState)
    (gives : GivesKnown context { calls := earlier } demands)
    (leaves : Leaves context (Demand.runWithin limit demands) { calls := earlier } ended) :
    ended.AlwaysGrounded context.catalog.schema := by
  have tracked : Meets context (Demand.runWithin limit demands) { calls := earlier }
      (fun _ => Tracked [] 0) (Tracked [] 0) := by
    apply meets_runWithin (tracked_of_begun gives)
    · exact fun ready begun => tracked_rounds limit begun
    · exact fun final tracked => tracked.regroup rfl rfl rfl rfl tracked.holding.targets
    · exact fun final tracked => tracked
  exact alwaysGrounded_of_tracked (tracked.of_leaves leaves)

end Run

namespace Units

open Run

/-- A unit that is its own parent becomes a new entity in every round, and none refers to itself. -/
theorem alwaysGrounded_circle : ∃ ended,
    Leaves (context circle) (Demand.runWithin 2 (lineage "1")) { calls := [] } ended ∧
    ended.arena.size = 3 ∧ ended.AlwaysGrounded (context circle).catalog.schema := by
  have gives : GivesKnown (context circle) { calls := [] } (lineage "1") := by
    apply givesKnown_of_nil
    intro demand member
    cases List.mem_singleton.mp member
    rfl
  have leaves : Leaves (context circle) (Demand.runWithin 2 (lineage "1")) { calls := [] } _ :=
    .inr ⟨.tooManyRounds 2, rfl⟩
  exact ⟨_, leaves, rfl,
    alwaysGrounded_of_run (context circle) (lineage "1") 2 [] _ gives leaves⟩

end Units

end EntityResolver
