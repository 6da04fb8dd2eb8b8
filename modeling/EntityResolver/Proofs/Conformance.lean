import EntityResolver.Proofs.Recursion
import EntityResolver.Proofs.Run.Arena
import EntityResolver.Proofs.Run.Steady

/-!
# Results conform to selectors

A run that comes to an end leaves nothing half done: every entity that was spawned has just the
fields of its selector, or it was allowed not to exist and is empty.
-/

set_option autoImplicit false

namespace EntityResolver

/-- The entity exists and has the fields of the selector and no others. What its fields refer to
conforms to their subselectors, recursion followed. -/
inductive Entity.Conforms : Selector → Entity → Prop where
  | intro {selector : Selector} {entity : Entity} (present : entity.isPresent = true)
      (names : (OrderedMap.keys entity.fields).Perm selector.names)
      (below : ∀ name value sub, (name, value) ∈ entity.fields →
        selector.subselector? name = some sub → ∀ inner ∈ value.entities, Conforms sub inner) :
      Conforms selector entity

/-- The order of fields does not count. -/
theorem Entity.Conforms.of_same {selector other : Selector} {entity : Entity}
    (conforms : Conforms selector entity) (distinct : selector.Distinct)
    (distinctToo : other.Distinct) (same : selector.same other = true) :
    Conforms other entity := by
  induction conforms generalizing other with
  | intro present names _ inductionHypothesis =>
      refine .intro present (names.trans ((Selector.same_iff distinct).mp same).1) ?_
      intro name value sub member selected inner inValue
      have listed := (Selector.mem_resolved_iff distinctToo).mpr selected
      obtain ⟨mine, listedToo, alike⟩ := Selector.exists_resolved_of_same distinctToo distinct
        (Selector.same_symm distinct distinctToo same) listed
      have distinctMine := distinct.of_mem_resolved listedToo
      have distinctSub := distinctToo.of_mem_resolved listed
      exact inductionHypothesis name value mine member
        ((Selector.mem_resolved_iff distinct).mp listedToo) inner inValue distinctMine distinctSub
        (Selector.same_symm distinctSub distinctMine alike)

namespace RunState

/-- The entity has kept its id, and has the fields that it was spawned for and no others. What a
field refers to was spawned for the subselector of the field, or there is nothing to know of it but
its class and id. -/
def Met (state : RunState) (origin : Origin) : Prop :=
  ∃ values, state.record? origin.entity = some ⟨origin.cls, some origin.id, values⟩ ∧
    (OrderedMap.keys values).Perm origin.selector.names ∧
    ∀ name value, (name, value) ∈ values → ∃ sub, origin.selector.subselector? name = some sub ∧
      ∀ entity ∈ value.entities,
        (∃ other ∈ state.origins, other.entity = entity ∧ other.isWeak = false ∧
          other.selector.same sub = true) ∨
        (sub = .empty ∧ ∃ cls id, state.record? entity = some ⟨cls, some id, []⟩)

/-- The entity was spawned weak, and nothing is left of it. -/
def Vanished (state : RunState) (origin : Origin) : Prop :=
  origin.isWeak = true ∧ state.record? origin.entity = some ⟨origin.cls, none, []⟩

end RunState

def Truth.trivial (schema : Schema) : Truth schema where
  holds _ _ _ _ := True
  lacks _ _ _ := True
  wider _ _ := True.intro
  kept _ _ := True.intro

theorem Truth.trivial_trivial (schema : Schema) : (Truth.trivial schema).Trivial :=
  ⟨fun _ _ _ _ => True.intro, fun _ _ _ => True.intro⟩

variable {context : RunContext} {before state : RunState} {origin : Origin}
variable {truth : Truth context.catalog.schema}

/-- Whatever getters answer, it belongs to what they were asked for. -/
theorem faithful_trivial (context : RunContext) :
    Faithful context (.trivial context.catalog.schema) where
  direct _ _ := .inr (Truth.trivial_trivial _)
  answers := by
    intro cls getter candidacy live before results after _ distinct _ _ sound done id _
    let discipline : Run.Discipline context := Run.sounding (.trivial _) live
    have everything := Truth.trivial_trivial context.catalog.schema
    have fetches : discipline.Fetches getter.cls candidacy.selector (getter.fetch candidacy) :=
      Run.Discipline.fetch (.inr everything) _
        fun _ _ selected _ _ => distinct.of_mem_resolved selected
    have delivered := ((fetches sound).yields done).2
    unfold Answers
    split
    · rename_i values found
      apply carries_of_brought everything
      exact (delivered id values (OrderedMap.mem_of_get? found)).mono
        fun _ _ _ ⟨_, _, serve⟩ => serve
    · exact True.intro
    · exact True.intro

namespace Sound

variable {truth : Truth context.catalog.schema}

/-- Once nothing is waited for, all entities are met, or weak and gone. -/
theorem met_or_vanished (sound : Sound truth [] state) (member : origin ∈ state.origins) :
    state.Met origin ∨ state.Vanished origin := by
  have distinct := sound.distinct origin member
  rcases sound.fates origin member with ⟨_, inNone, _⟩ | settled
  · cases inNone
  · cases settled with
    | @met values holds =>
        refine .inl ⟨values, holds.record, by simpa using holds.names, ?_⟩
        intro name value stored
        obtain ⟨sub, selected, keys, _, stands⟩ := holds.carries name value stored
        refine ⟨sub, (Selector.mem_resolved_iff distinct).mp selected, fun entity inValue => ?_⟩
        obtain ⟨key, _, stand⟩ := stands.symm.exists_of_mem inValue
        rcases stand with ⟨other, spawned, rfl, isStrong, _, alike⟩ | ⟨empty, bare⟩
        · exact .inl ⟨other, spawned, rfl, isStrong, alike⟩
        · exact .inr ⟨empty, key.1, key.2, bare.record⟩
    | gone isWeak record _ => exact .inr ⟨isWeak, record⟩

theorem conforms_of_holds {depth : Nat} {values : FieldValues}
    (inside : ∀ name value, (name, value) ∈ values → ∀ entity ∈ value.entities,
      ∀ sub key, sub.Distinct → state.Stands sub entity key →
        (state.tree context.catalog.schema depth entity).Conforms sub)
    (holds : Holds truth state origin values []) (distinct : origin.selector.Distinct) :
    (state.tree context.catalog.schema (depth + 1) origin.entity).Conforms origin.selector := by
  simp only [RunState.tree, holds.record]
  refine .intro rfl ?_ fun _ _ sub member selected inner inValue => ?_
  · have keys : OrderedMap.keys (values.map fun entry =>
        (entry.1, entry.2.mapEntities (state.tree context.catalog.schema depth))) =
          OrderedMap.keys values := by
      simp [OrderedMap.keys, Function.comp_def]
    rw [keys]
    simpa using holds.names
  · obtain ⟨⟨name, stored⟩, inValues, same⟩ := List.mem_map.mp member
    cases same
    obtain ⟨mine, selectedToo, keys, _, stands⟩ := holds.carries name stored inValues
    have found := (Selector.mem_resolved_iff distinct).mp selectedToo
    cases selected.symm.trans found
    rw [FieldValue.entities_mapEntities] at inValue
    obtain ⟨entity, inStored, rfl⟩ := List.mem_map.mp inValue
    obtain ⟨key, _, stand⟩ := stands.symm.exists_of_mem inStored
    exact inside name stored inValues entity inStored sub key
      (distinct.of_mem_resolved selectedToo) stand

theorem conforms_tree (sound : Sound truth [] state) {rank : Nat → Nat}
    (falls : Falls state.arena rank) {depth : Nat} {sub : Selector} {entity : Handle}
    {key : EntityKey} (distinct : sub.Distinct) (stands : state.Stands sub entity key)
    (deep : rank entity.index < depth) :
    (state.tree context.catalog.schema depth entity).Conforms sub := by
  induction depth generalizing sub entity key with
  | zero => omega
  | succ depth inductionHypothesis =>
      rcases stands with ⟨origin, spawned, rfl, isStrong, rfl, alike⟩ | ⟨rfl, bare⟩
      · have distinctOrigin := sound.distinct origin spawned
        refine Entity.Conforms.of_same ?_ distinctOrigin distinct alike
        rcases sound.fates origin spawned with ⟨_, inNone, _⟩ | settled
        · cases inNone
        · cases settled with
          | gone isWeak => simp [isWeak] at isStrong
          | @met values holds =>
              refine conforms_of_holds ?_ holds distinctOrigin
              intro name value stored inner inValue sub key distinctSub stand
              have less := falls.falls _ _ holds.record name value stored inner inValue
              exact inductionHypothesis distinctSub stand (by omega)
      · simp only [RunState.tree, bare.record]
        refine .intro rfl (.refl _) fun name value sub member => ?_
        cases member

theorem conforms_of_ranked (sound : Sound truth [] state) (ranked : Ranked state.arena)
    (member : origin ∈ state.origins) (met : state.Met origin) :
    (state.materialize context.catalog.schema origin.entity).Conforms origin.selector := by
  obtain ⟨rank, falls⟩ := ranked
  obtain ⟨values, record, _⟩ := met
  have distinct := sound.distinct origin member
  have bound := falls.bounded _ (RunState.index_lt_of_record record)
  obtain ⟨deep, size⟩ : ∃ deep, state.arena.size = deep + 1 :=
    ⟨state.arena.size - 1, by omega⟩
  rcases sound.fates origin member with ⟨_, inNone, _⟩ | settled
  · cases inNone
  · cases settled with
    | gone _ recordToo => cases record.symm.trans recordToo
    | @met values holds =>
        rw [RunState.materialize, size]
        refine conforms_of_holds ?_ holds distinct
        intro name value stored inner inValue sub key distinctSub stand
        have less := falls.falls _ _ holds.record name value stored inner inValue
        exact sound.conforms_tree falls distinctSub stand (by omega)

end Sound

namespace Run

variable {demands : List Demand} {limit : Nat} {earlier : List Call} {stats : RunStats}
variable {ended : RunState}

theorem steady_of_begun
    (wanted : ∀ demand ∈ demands, demand.selector.Distinct ∧ demand.values = [])
    (begun : Yields context (do Demand.placeAll demands; prepare) { calls := earlier } () state) :
    Steady (.trivial context.catalog.schema) state := by
  obtain ⟨_, placed, first, prepared⟩ := yields_bind_iff.mp begun
  have everything := Truth.trivial_trivial context.catalog.schema
  let discipline : Discipline context := sounding (.trivial _) []
  have ignores : discipline.IgnoresPrerequisites := fun state prerequisites sound =>
    have reframed := sound.frame state.pools state.spawned prerequisites state.outputs state.stats
      state.calls
    ⟨reframed.1, reframed.2⟩
  have accepted : discipline.AcceptsAll { calls := earlier } demands :=
    Discipline.acceptsAll_of_forall fun demand member _ =>
      ⟨fun _ _ => (wanted demand member).2, fun _ _ => (wanted demand member).1⟩
  have nothing : discipline.invariant { calls := earlier } := .start _ _
  obtain ⟨reached, awaits, pools⟩ := (discipline.placeAll everything ignores accepted nothing
    (by simp [Discipline.Awaits])).yields first
  obtain ⟨satisfied, settled, same, pooled⟩ :=
    (discipline.prepare everything ignores reached.valid awaits).yields prepared
  cases yields_poolSpawned_iff.mp pooled
  have sound : Sound (.trivial _) (satisfied.spawned ++ []) satisfied := settled.valid
  rw [List.append_nil] at sound
  exact .of_spawned sound (same.trans pools)

/-- Whatever the remote answers: if a run succeeds, no target is left, and every entity that was
spawned is either a tree that conforms to its selector or weak and gone. -/
theorem conforms_of_yields (context : RunContext) (demands : List Demand) (limit : Nat)
    (earlier : List Call) (stats : RunStats) (ended : RunState)
    (wanted : ∀ demand ∈ demands, demand.selector.Distinct ∧ demand.values = [])
    (done : Yields context (Demand.runWithin limit demands) { calls := earlier } stats ended) :
    ended.pools = [] ∧ ended.spawned = [] ∧ ∀ origin ∈ ended.origins,
      (ended.Met origin ∧
        (ended.materialize context.catalog.schema origin.entity).Conforms origin.selector) ∨
      ended.Vanished origin := by
  rw [runWithin_eq] at done
  obtain ⟨_, ready, begun, concluded⟩ := yields_bind_iff.mp done
  have steady := steady_of_begun wanted begun
  have gives : GivesKnown context { calls := earlier } demands :=
    givesKnown_of_nil fun demand member => (wanted demand member).2
  have tracked := (tracked_of_begun gives).yields begun
  obtain ⟨final, rounds, _, rfl⟩ := yields_conclude_iff.mp concluded
  obtain ⟨steadyFinal, _, empty⟩ := steady.rounds (faithful_trivial context) rounds
  have trackedFinal := (tracked_rounds limit tracked).yields rounds
  have sound : Sound (.trivial context.catalog.schema) [] final := by
    have whole := steadyFinal.sound
    rwa [RunState.pooled, empty rfl] at whole
  refine ⟨empty rfl, steadyFinal.none, fun origin member => ?_⟩
  refine (sound.met_or_vanished member).imp_left fun met => ⟨met, ?_⟩
  let cleared : RunState := { final with cache := [] }
  have arena : cleared.arena = final.arena := rfl
  rw [RunState.materialize_congr origin.entity arena]
  exact sound.conforms_of_ranked trackedFinal.ranked.now member met

end Run

namespace Units

open Run

/-- All ancestors of a unit conform to the recursive selector. -/
theorem conforms_line : ∃ stats ended,
    Yields (Units.context line) (Demand.runWithin 2 (lineage "2")) { calls := [] } stats ended ∧
    ended.origins.map Origin.key = [(cls, "1"), (cls, "2")] ∧
    ended.pools = [] ∧ ended.spawned = [] ∧ ∀ origin ∈ ended.origins,
      (ended.Met origin ∧
        (ended.materialize schema origin.entity).Conforms origin.selector) ∨
      ended.Vanished origin := by
  have wanted : ∀ demand ∈ lineage "2", demand.selector.Distinct ∧ demand.values = [] := by
    intro demand member
    cases List.mem_singleton.mp member
    simp [Demand.selector, Demand.values, ancestors, Selector.Distinct, Selector.names]
  exact ⟨⟨2, 2, 0⟩, _, rfl, rfl,
    conforms_of_yields (Units.context line) (lineage "2") 2 [] _ _ wanted rfl⟩

end Units

end EntityResolver
