import EntityResolver.Proofs.Evaluation.Fetching
import EntityResolver.Proofs.Run.Arena

/-!
What a run ends with is what direct evaluation gives.

When nothing is waited for any longer, every entity that was spawned has the fields of its selector
with the values of its record, and entities for what they refer to. Read as trees, these are the
evaluated entities.
-/

set_option autoImplicit false

namespace EntityResolver

/-- The evaluation of the entity gives the tree, up to the order of fields. -/
def Records.Gives (records : Records) (context : RunContext) (depth : Nat) (key : EntityKey)
    (selector : Selector) (tree : Entity) : Prop :=
  ∃ expected, records.evaluate context depth key selector = some expected ∧ tree.Alike expected

theorem Entity.alike_bare (cls : ClassId) (className : String) (id : Option String) :
    (Entity.bare cls className id).Alike (.bare cls className id) := by
  apply Entity.Alike.of_rel rfl rfl rfl (.refl _)
  intro name one other member
  cases member

namespace Records

variable {records : Records} {context : RunContext} {depth : Nat} {key : EntityKey}
variable {selector : Selector} {values : FieldValues} {grow : Handle → Entity}

theorem exists_value {sub : Selector} {value : FieldValue Handle} {keys : FieldValue EntityKey}
    (same : value.Rel (fun entity inner => records.Gives context depth inner sub (grow entity))
      keys) :
    ∃ evaluated, keys.Rel (fun inner tree => records.evaluate context depth inner sub = some tree)
        evaluated ∧ (value.mapEntities grow).Rel Entity.Alike evaluated := by
  have each : ∀ inner ∈ keys.entities, ∃ tree,
      records.evaluate context depth inner sub = some tree := by
    intro inner member
    obtain ⟨_, _, tree, evaluated, _⟩ := same.exists_of_mem member
    exact ⟨tree, evaluated⟩
  obtain ⟨evaluated, pairs⟩ := FieldValue.exists_rel each
  refine ⟨evaluated, pairs, (same.comp pairs).map_left ?_⟩
  rintro entity tree ⟨inner, ⟨expected, found, alike⟩, foundToo⟩
  cases found.symm.trans foundToo
  exact alike

theorem keys_of_forall₂ {entries : List (String × Selector)}
    {fields : List (String × FieldValue Entity)}
    (pairs : List.Forall₂ (fun entry field => field.1 = entry.1) entries fields) :
    OrderedMap.keys fields = entries.map Prod.fst := by
  induction pairs with
  | nil => rfl
  | cons pair _ inductionHypothesis => exact congrArg₂ List.cons pair inductionHypothesis

theorem gives_of_values (distinct : selector.Distinct)
    (names : (OrderedMap.keys values).Perm selector.names)
    (each : ∀ name value, (name, value) ∈ values → ∃ sub keys, (name, sub) ∈ selector.resolved ∧
      records.read? context key name = some keys ∧
      value.Rel (fun entity inner => records.Gives context depth inner sub (grow entity)) keys) :
    records.Gives context (depth + 1) key selector
      ⟨key.1, context.catalog.schema.className key.1, some key.2,
        values.map fun (name, value) => (name, value.mapEntities grow)⟩ := by
  have fields : ∀ entry ∈ selector.resolved, ∃ field : String × FieldValue Entity,
      field.1 = entry.1 ∧
      (∃ keys, records.read? context key entry.1 = some keys ∧
        keys.Rel (fun inner tree => records.evaluate context depth inner entry.2 = some tree)
          field.2) ∧
      ∃ value, (entry.1, value) ∈ values ∧
        (value.mapEntities grow).Rel Entity.Alike field.2 := by
    rintro ⟨name, sub⟩ selected
    have listed := names.mem_iff.mpr (Selector.mem_names_of_mem_resolved selected)
    obtain ⟨⟨_, value⟩, stored, rfl⟩ := List.mem_map.mp listed
    obtain ⟨mine, keys, selectedToo, read, same⟩ := each _ value stored
    have found := (Selector.mem_resolved_iff distinct).mp selected
    cases found.symm.trans ((Selector.mem_resolved_iff distinct).mp selectedToo)
    obtain ⟨evaluated, pairs, alike⟩ := exists_value same
    exact ⟨(_, evaluated), rfl, ⟨keys, read, pairs⟩, value, stored, alike⟩
  obtain ⟨fields, pairs⟩ := FieldValue.exists_forall₂ fields
  refine ⟨_, evaluate_eq_some_iff.mpr ⟨fields, rfl, pairs.imp ?_⟩, ?_⟩
  · intro entry field known
    exact ⟨known.1, known.2.1⟩
  refine Entity.Alike.of_rel rfl rfl rfl ?_ ?_
  · have listed : OrderedMap.keys fields = selector.names := by
      rw [keys_of_forall₂ (pairs.imp fun _ _ known => known.1), Selector.map_fst_resolved]
    rw [listed]
    refine List.Perm.trans (.of_eq ?_) names
    simp [OrderedMap.keys, Function.comp_def]
  · intro name one other member memberToo
    obtain ⟨⟨_, value⟩, stored, same⟩ := List.mem_map.mp member
    cases same
    obtain ⟨entry, _, named, _, mine, storedToo, alike⟩ :=
      FieldValue.exists_related pairs.flip memberToo
    have once : (values.map Prod.fst).Nodup := names.nodup_iff.mpr distinct.nodup
    cases List.inj_on_of_nodup_map once stored storedToo named
    exact alike

end Records

variable {context : RunContext} {records : Records} {state : RunState} {origin : Origin}
variable {rank : Nat → Nat} {depth : Nat} {sub : Selector} {entity : Handle} {key : EntityKey}

namespace Sound

/-- An entity whose values are known is a tree that evaluation gives, if the trees inside it are. -/
theorem gives_of_holds {values : FieldValues} (sound : Sound (records.truth context) [] state)
    (member : origin ∈ state.origins) (holds : Holds (records.truth context) state origin values [])
    (inside : ∀ name value, (name, value) ∈ values → ∀ entity ∈ value.entities,
      ∀ below inner, below.Distinct → state.Stands below entity inner →
        records.Gives context depth inner below
          (state.tree context.catalog.schema depth entity))
    (distinct : sub.Distinct) (same : origin.selector.same sub = true) :
    records.Gives context (depth + 1) origin.key sub
      (state.tree context.catalog.schema (depth + 1) origin.entity) := by
  have distinctOrigin := sound.distinct origin member
  have names := ((Selector.same_iff distinctOrigin).mp same).1
  simp only [RunState.tree, holds.record]
  apply Records.gives_of_values distinct
  · exact List.Perm.trans (by simpa using holds.names) names
  · intro name value stored
    obtain ⟨mine, selected, keys, read, stands⟩ := holds.carries name value stored
    obtain ⟨other, selectedToo, alike⟩ :=
      Selector.exists_resolved_of_same distinctOrigin distinct same selected
    have distinctMine := distinctOrigin.of_mem_resolved selected
    have distinctToo := distinct.of_mem_resolved selectedToo
    refine ⟨other, keys, selectedToo, read, stands.mono ?_⟩
    intro entity inValue inner stand
    apply inside name value stored entity inValue other inner distinctToo
    exact sound.stands_of_same distinctMine distinctToo alike stand

theorem gives_tree (sound : Sound (records.truth context) [] state) (falls : Falls state.arena rank)
    (distinct : sub.Distinct) (stands : state.Stands sub entity key)
    (deep : rank entity.index < depth) :
    records.Gives context depth key sub (state.tree context.catalog.schema depth entity) := by
  induction depth generalizing sub entity key with
  | zero => omega
  | succ depth inductionHypothesis =>
      rcases stands with ⟨origin, spawned, rfl, isStrong, rfl, alike⟩ | ⟨rfl, bare⟩
      · rcases sound.fates origin spawned with ⟨_, inNone, _⟩ | settled
        · cases inNone
        · cases settled with
          | gone isWeak => simp [isWeak] at isStrong
          | @met values holds =>
              apply sound.gives_of_holds spawned holds _ distinct alike
              intro name value stored inner inValue below key distinctBelow stand
              have less := falls.falls _ _ holds.record name value stored inner inValue
              exact inductionHypothesis distinctBelow stand (by omega)
      · refine ⟨_, Records.evaluate_eq_some_iff.mpr ⟨[], rfl, .nil⟩, ?_⟩
        simp only [RunState.tree, bare.record]
        exact Entity.alike_bare _ _ _

theorem alike_root (sound : Sound (records.truth context) [] state) (ranked : Ranked state.arena)
    {root : Root}
    (member : ⟨entity, root.key.1, root.key.2, root.selector, true⟩ ∈ state.origins) :
    ∃ expected, records.evaluateRoot context state.arena.size root = some expected ∧
      (state.materialize context.catalog.schema entity).Alike expected := by
  obtain ⟨rank, falls⟩ := ranked
  have distinct := sound.distinct _ member
  obtain ⟨record, found⟩ := sound.exists_record member
  have bound := falls.bounded _ (RunState.index_lt_of_record found)
  obtain ⟨depth, size⟩ : ∃ depth, state.arena.size = depth + 1 :=
    ⟨state.arena.size - 1, by omega⟩
  rw [RunState.materialize, size]
  rcases sound.fates _ member with ⟨_, inNone, _⟩ | settled
  · cases inNone
  · cases settled with
    | gone _ vanished lacks =>
        have absent : records.Absent context root.key root.selector := lacks
        rw [Records.evaluateRoot, if_pos absent]
        refine ⟨_, rfl, ?_⟩
        simp only [RunState.tree, vanished]
        exact Entity.alike_bare _ _ _
    | @met values holds =>
        have present : ¬ records.Absent context root.key root.selector := by
          rintro ⟨absent, name, selected, _⟩
          have listed : name ∈ OrderedMap.keys values ++ [] := holds.names.mem_iff.mpr selected
          rw [List.append_nil] at listed
          obtain ⟨⟨_, value⟩, stored, rfl⟩ := List.mem_map.mp listed
          obtain ⟨_, _, keys, read, _⟩ := holds.carries _ value stored
          obtain ⟨members, found, _⟩ := Option.bind_eq_some_iff.mp read
          cases absent.symm.trans found
        rw [Records.evaluateRoot, if_neg present]
        apply sound.gives_of_holds member holds _ distinct (Selector.same_refl distinct)
        intro name value stored inner inValue below key distinctBelow stand
        have less := falls.falls _ _ holds.record name value stored inner inValue
        exact sound.gives_tree falls distinctBelow stand (by omega)

end Sound

end EntityResolver
