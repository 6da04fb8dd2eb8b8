import EntityResolver.Proofs.Run.Resolving

/-!
Reading a response is nothing but spawning.

Whatever pickers read, they change a run by spawning entities only, children before the entity that
is spawned with them, each of the class that its field refers to and with a selector that follows
from the one it is read for. So what holds of spawning holds of reading, also of reading that fails
halfway. A `Discipline` says what has to be known of spawning, and the theorems carry it over to
everything that reads responses.
-/

set_option autoImplicit false

namespace EntityResolver

/-- The picker spawns entities by id alone, without values for them. -/
def Picker.isDirect : Picker → Bool
  | .scalar _ _ | .reference _ | .referenceList _ | .referenceMap _ _ => true
  | .inline _ _ | .inlineList _ _ | .nested _ _ _ _ _ _ _ => false

/-- All pickers spawn entities by id alone. -/
def FieldPickers.areDirect : FieldPickers → Bool
  | .none => true
  | .field _ picker rest => picker.isDirect && rest.areDirect

/-- The class has a field of that name, which refers to entities of the other class. -/
def Schema.Refers (schema : Schema) (cls : ClassId) (name : String) (inner : ClassId) : Prop :=
  ∃ field, schema.field? cls name = some field ∧ field.kind.target? = some inner

theorem Field.target_eq_ok_iff {field : Field} {path : String} {cls : ClassId} :
    field.target path = .ok cls ↔ field.kind.target? = some cls := by
  unfold Field.target
  cases field.kind.target? <;> simp

namespace Run

/-- The values belong to selected fields, and each of their entities is linked to its field. -/
def Brought (links : String → Selector → Handle → Prop) (fields : List (String × Selector))
    (values : FieldValues) : Prop :=
  ∀ name value, (name, value) ∈ values →
    ∃ sub, (name, sub) ∈ fields ∧ ∀ entity ∈ value.entities, links name sub entity

theorem Brought.mono {links wider : String → Selector → Handle → Prop}
    {fields : List (String × Selector)} {values : FieldValues}
    (brought : Brought links fields values)
    (more : ∀ name sub entity, links name sub entity → wider name sub entity) :
    Brought wider fields values := by
  intro name value member
  obtain ⟨sub, selected, linked⟩ := brought name value member
  exact ⟨sub, selected, fun entity inValue => more name sub entity (linked entity inValue)⟩

theorem brought_nil (links : String → Selector → Handle → Prop)
    (fields : List (String × Selector)) : Brought links fields [] :=
  fun _ _ member => absurd member List.not_mem_nil

def loadPresent (loadOne : Json → Run (Option Handle)) (item : Json) : Run (Option Handle) :=
  if item.isNull then pure none else loadOne item

theorem loadEntities_cons (loadOne : Json → Run (Option Handle)) (item : Json)
    (rest : List Json) :
    Run.loadEntities loadOne (item :: rest) = (do
      let entity? ← loadPresent loadOne item
      let entities ← Run.loadEntities loadOne rest
      return match entity? with
        | some entity => entity :: entities
        | none => entities) := by
  unfold loadPresent
  rw [Run.loadEntities]
  split <;> rfl

theorem loadMembers_cons (loadOne : Json → Run (Option Handle)) (key : String) (item : Json)
    (rest : List (String × Json)) :
    Run.loadMembers loadOne ((key, item) :: rest) = (do
      let entity? ← loadPresent loadOne item
      let entities ← Run.loadMembers loadOne rest
      return match entity? with
        | some entity => (key, entity) :: entities
        | none => entities) := by
  unfold loadPresent
  rw [Run.loadMembers]
  split <;> rfl

/-- What is known of spawning in the runs of a context.

`invariant` holds of states, `leads` relates a state to later ones, `serves` says that an entity of
a class was spawned for a selector, and `knows` that an entity was given out. `admits` bounds the
selectors for the entities of each class, and only if `embeds` holds may entities come with values;
those that a run is begun for come with `given` ones. A field of an entity is linked to entities of
the class that it refers to, or to further ones like those around it if it is recursive. -/
structure Discipline (context : RunContext) where
  embeds : Prop
  given : RunState → ClassId → FieldValues → Prop
  admits : ClassId → Selector → Prop
  invariant : RunState → Prop
  leads : RunState → RunState → Prop
  serves : RunState → ClassId → Selector → Handle → Prop
  knows : RunState → Handle → Prop
  refl : ∀ state, leads state state
  trans : ∀ {before middle after}, leads before middle → leads middle after → leads before after
  keeps : ∀ {before after cls sub entity},
    leads before after → serves before cls sub entity → serves after cls sub entity
  known : ∀ {state cls sub entity}, serves state cls sub entity → knows state entity
  remains : ∀ {before after entity}, leads before after → knows before entity → knows after entity
  below : ∀ {cls selector name sub inner}, admits cls selector → (name, sub) ∈ selector.resolved →
    context.catalog.schema.Refers cls name inner → admits inner sub
  spawns : ∀ {before after cls id selector values entity},
    invariant before → admits cls selector → (values = [] ∨ embeds) →
    Brought (fun name sub entity => ∃ inner,
      (context.catalog.schema.Refers cls name inner ∨ selector.isRecursive name = true) ∧
        serves before inner sub entity) selector.resolved values →
    Yields context (spawn cls id selector values false) before entity after →
    invariant after ∧ leads before after ∧ serves after cls selector entity
  roots : ∀ {before after cls id selector values isWeak entity},
    invariant before → admits cls selector → given before cls values →
    Yields context (spawn cls id selector values isWeak) before entity after →
    invariant after ∧ leads before after
  frame : ∀ {state} calls stats outputs, invariant state →
    (∀ entities ∈ outputs, ∀ entity ∈ entities,
      (∃ old ∈ state.outputs, entity ∈ old) ∨ knows state entity) →
    invariant { state with calls := calls, stats := stats, outputs := outputs } ∧
      leads state { state with calls := calls, stats := stats, outputs := outputs }
  shelves : ∀ {before after cls id sub values entity}, invariant before →
    (∀ name value, (name, value) ∈ values → ∀ other ∈ value.entities, ∃ inner,
      serves before inner sub other) →
    Yields context (alloc cls (some id) values) before entity after →
    invariant after ∧ leads before after ∧ knows after entity

namespace Discipline

variable {context : RunContext} (discipline : Discipline context)
variable {before middle after : RunState} {cls inner : ClassId} {sub selector : Selector}
variable {α β : Type}

structure Reaches (before after : RunState) : Prop where
  valid : discipline.invariant after
  later : discipline.leads before after

/-- Whether the step succeeds or fails, it ends in a state that may come after the given one, and a
result is as `good` says. -/
def Ensures (before : RunState) (step : Run α) (good : α → RunState → Prop) : Prop :=
  Meets context step before (fun result after => discipline.Reaches before after ∧ good result after)
    (discipline.Reaches before)

def Finds (cls : ClassId) (sub : Selector) (step : Run α) (entities : α → List Handle) : Prop :=
  ∀ ⦃before⦄, discipline.invariant before → discipline.Ensures before step fun result after =>
    ∀ entity ∈ entities result, discipline.serves after cls sub entity

/-- Everything that a field refers to may be spawned for the selector. -/
def AdmitsAt (cls : ClassId) (name : String) (sub : Selector) : Prop :=
  ∀ ⦃inner⦄, context.catalog.schema.Refers cls name inner → discipline.admits inner sub

/-- Everything that a selector selects its fields with is admitted. -/
def AdmitsBelow (cls : ClassId) (selector : Selector) : Prop :=
  ∀ ⦃name sub⦄, (name, sub) ∈ selector.resolved → discipline.AdmitsAt cls name sub

def Suits (state : RunState) (cls : ClassId) (name : String) (sub : Selector) (entity : Handle) :
    Prop :=
  ∃ inner, context.catalog.schema.Refers cls name inner ∧ discipline.serves state inner sub entity

/-- Reading a field spawns entities of the class that it refers to, for its subselector. -/
def Reads (loadField : LoadField) : Prop :=
  ∀ ⦃cls name sub⦄ response, discipline.AdmitsAt cls name sub → ∀ ⦃before⦄,
    discipline.invariant before →
      discipline.Ensures before (loadField cls response name sub) fun value? after =>
        ∀ entity ∈ value?.toList.flatMap FieldValue.entities,
          discipline.Suits after cls name sub entity

/-- The entity may stand in a field of an entity that is spawned for the selector. -/
def Links (state : RunState) (cls : ClassId) (selector : Selector) (name : String) (sub : Selector)
    (entity : Handle) : Prop :=
  ∃ inner, (context.catalog.schema.Refers cls name inner ∨ selector.isRecursive name = true) ∧
    discipline.serves state inner sub entity

variable {discipline}

theorem Reaches.refl (valid : discipline.invariant before) : discipline.Reaches before before :=
  ⟨valid, discipline.refl before⟩

theorem Reaches.trans (first : discipline.Reaches before middle)
    (second : discipline.Reaches middle after) : discipline.Reaches before after :=
  ⟨second.valid, discipline.trans first.later second.later⟩

theorem admitsBelow_of_admits (admitted : discipline.admits cls selector) :
    discipline.AdmitsBelow cls selector :=
  fun _ _ member _ refers => discipline.below admitted member refers

theorem links_mono (later : discipline.leads before after) {name : String} {entity : Handle}
    (linked : discipline.Links before cls selector name sub entity) :
    discipline.Links after cls selector name sub entity := by
  obtain ⟨inner, how, serve⟩ := linked
  exact ⟨inner, how, discipline.keeps later serve⟩

theorem suits_mono (later : discipline.leads before after) {name : String} {entity : Handle}
    (suits : discipline.Suits before cls name sub entity) :
    discipline.Suits after cls name sub entity := by
  obtain ⟨inner, refers, serve⟩ := suits
  exact ⟨inner, refers, discipline.keeps later serve⟩

theorem brought_mono (later : discipline.leads before after) {fields : List (String × Selector)}
    {values : FieldValues}
    (brought : Brought (discipline.Links before cls selector) fields values) :
    Brought (discipline.Links after cls selector) fields values :=
  brought.mono fun _ _ _ linked => links_mono later linked

/-- Values that were read may be spawned with. -/
theorem brought_links {fields : List (String × Selector)} {values : FieldValues}
    (brought : Brought (discipline.Suits before cls) fields values) :
    Brought (discipline.Links before cls selector) fields values :=
  brought.mono fun _ _ _ ⟨inner, refers, serve⟩ => ⟨inner, .inl refers, serve⟩

theorem Ensures.yields {step : Run α} {good : α → RunState → Prop} {result : α}
    (ensured : discipline.Ensures before step good)
    (done : Yields context step before result after) :
    discipline.Reaches before after ∧ good result after :=
  Meets.yields ensured done

theorem Ensures.mono {step : Run α} {good better : α → RunState → Prop}
    (ensured : discipline.Ensures before step good)
    (more : ∀ result after, good result after → better result after) :
    discipline.Ensures before step better := by
  apply Meets.mono ensured
  · exact fun result after met => ⟨met.1, more result after met.2⟩
  · exact fun _ reached => reached

theorem ensures_of_yields {step : Run α} {good : α → RunState → Prop} {result : α}
    (done : Yields context step before result after) (reached : discipline.Reaches before after)
    (holds : good result after) : discipline.Ensures before step good :=
  done.meets ⟨reached, holds⟩

theorem ensures_pure {good : α → RunState → Prop} {value : α}
    (valid : discipline.invariant before) (holds : good value before) :
    discipline.Ensures before (pure value) good :=
  ensures_of_yields (yields_pure_iff.mpr ⟨rfl, rfl⟩) (.refl valid) holds

theorem ensures_throw {good : α → RunState → Prop} (error : ResolveError)
    (valid : discipline.invariant before) : discipline.Ensures before (throw error) good :=
  Reaches.refl valid

theorem ensures_modify {change : RunState → RunState} {good : Unit → RunState → Prop}
    (reached : discipline.Reaches before (change before)) (holds : good () (change before)) :
    discipline.Ensures before (modify change) good :=
  ensures_of_yields (yields_modify_iff.mpr rfl) reached holds

theorem Ensures.bind {step : Run α} {next : α → Run β} {good : α → RunState → Prop}
    {better : β → RunState → Prop} (first : discipline.Ensures before step good)
    (rest : ∀ value middle, discipline.Reaches before middle → good value middle →
      discipline.Ensures middle (next value) better) :
    discipline.Ensures before (step >>= next) better := by
  unfold Ensures
  rw [meets_bind_iff]
  apply Meets.mono first
  · intro value middle met
    apply Meets.mono (rest value middle met.1 met.2)
    · exact fun result after found => ⟨met.1.trans found.1, found.2⟩
    · exact fun after failed => met.1.trans failed
  · exact fun after failed => failed

theorem ensures_ofExcept_bind {outcome : Except ResolveError α} {next : α → Run β}
    {good : β → RunState → Prop} (valid : discipline.invariant before)
    (rest : ∀ value, outcome = .ok value → discipline.Ensures before (next value) good) :
    discipline.Ensures before (ofExcept outcome >>= next) good := by
  cases outcome with
  | ok value => exact rest value rfl
  | error error => exact Reaches.refl valid

theorem ensures_read_bind {next : RunContext → Run β} {good : β → RunState → Prop}
    (rest : discipline.Ensures before (next context) good) :
    discipline.Ensures before (read >>= next) good :=
  rest

theorem ensures_schema_bind {next : Schema → Run β} {good : β → RunState → Prop}
    (rest : discipline.Ensures before (next context.catalog.schema) good) :
    discipline.Ensures before (schema >>= next) good :=
  rest

theorem ensures_className (cls : ClassId) (valid : discipline.invariant before) :
    discipline.Ensures before (className cls) fun _ _ => True :=
  ensures_of_yields (yields_className_iff.mpr ⟨rfl, rfl⟩) (.refl valid) trivial

theorem ensures_spawn {id : String} {values : FieldValues} (valid : discipline.invariant before)
    (admitted : discipline.admits cls selector) (direct : values = [] ∨ discipline.embeds)
    (brought : Brought (discipline.Links before cls selector) selector.resolved values) :
    discipline.Ensures before (spawn cls id selector values false) fun entity after =>
      discipline.serves after cls selector entity := by
  obtain ⟨entity, after, done⟩ : Succeeds context (spawn cls id selector values false) before :=
    succeeds_spawn _ _ _ _ _ _
  obtain ⟨validAfter, later, serve⟩ := discipline.spawns valid admitted direct brought done
  exact ensures_of_yields done ⟨validAfter, later⟩ serve

theorem ensures_spawnAlone {id : String} (valid : discipline.invariant before)
    (admitted : discipline.admits cls selector) :
    discipline.Ensures before (spawn cls id selector [] false) fun entity after =>
      discipline.serves after cls selector entity :=
  ensures_spawn valid admitted (.inl rfl) (brought_nil _ _)

theorem ensures_shelved {id : String} {values : FieldValues}
    (valid : discipline.invariant before)
    (serve : ∀ name value, (name, value) ∈ values → ∀ other ∈ value.entities, ∃ inner,
      discipline.serves before inner sub other) :
    discipline.Ensures before (alloc cls (some id) values) fun entity after =>
      discipline.knows after entity := by
  have stored : Yields context (alloc cls (some id) values) before _ _ :=
    yields_alloc_iff.mpr ⟨rfl, rfl⟩
  obtain ⟨validAfter, later, known⟩ := discipline.shelves valid serve stored
  exact ensures_of_yields stored ⟨validAfter, later⟩ known

theorem loadSelected {loadField : LoadField} (reads : discipline.Reads loadField)
    {response : Json} {fields : List (String × Selector)}
    (admitted : ∀ name sub, (name, sub) ∈ fields → discipline.AdmitsAt cls name sub)
    (valid : discipline.invariant before) :
    discipline.Ensures before (loadSelected loadField cls response fields) fun values after =>
      Brought (discipline.Suits after cls) fields values := by
  induction fields generalizing before with
  | nil => exact ensures_pure valid (brought_nil _ _)
  | cons entry rest inductionHypothesis =>
      obtain ⟨name, sub⟩ := entry
      rw [Run.loadSelected]
      apply (reads response (admitted name sub List.mem_cons_self) valid).bind
      intro value? middle first found
      apply (inductionHypothesis
        (fun name sub member => admitted name sub (List.mem_cons_of_mem _ member)) first.valid).bind
      intro others after second brought
      apply ensures_pure second.valid
      have tail : Brought (discipline.Suits after cls) ((name, sub) :: rest) others := by
        intro other value member
        obtain ⟨below, selected, suits⟩ := brought other value member
        exact ⟨below, List.mem_cons_of_mem _ selected, suits⟩
      cases value? with
      | none => exact tail
      | some value =>
          intro other stored member
          rcases List.mem_cons.mp member with same | member
          · cases same
            refine ⟨sub, List.mem_cons_self, fun entity inValue => ?_⟩
            exact suits_mono second.later (found entity (by simpa using inValue))
          · exact tail other stored member

theorem loadValues {loadField : LoadField} (reads : discipline.Reads loadField)
    {response : Json} (admitted : discipline.AdmitsBelow cls selector)
    (valid : discipline.invariant before) :
    discipline.Ensures before (loadValues loadField cls response selector) fun values after =>
      Brought (discipline.Suits after cls) selector.resolved values :=
  loadSelected reads (fun _ _ member => admitted member) valid

theorem loadEntity {loadField : LoadField} (reads : discipline.Reads loadField)
    (embeds : discipline.embeds) (admitted : discipline.admits cls selector) (path : String)
    (id : IdSpec) (response : Json) :
    discipline.Finds cls selector (loadEntity path id loadField cls response selector)
      Option.toList := by
  intro before valid
  rw [Run.loadEntity]
  apply ensures_ofExcept_bind valid
  intro id? _
  cases id? with
  | none => exact ensures_pure valid (by simp)
  | some id =>
      apply (loadValues reads (admitsBelow_of_admits admitted) valid).bind
      intro values middle first brought
      apply (ensures_spawn first.valid admitted (.inr embeds) (brought_links brought)).bind
      intro entity after second serve
      exact ensures_pure second.valid (by simpa using serve)

theorem loadPresent_finds {loadOne : Json → Run (Option Handle)}
    (finds : ∀ item, discipline.Finds cls sub (loadOne item) Option.toList) (item : Json) :
    discipline.Finds cls sub (loadPresent loadOne item) Option.toList := by
  intro before valid
  unfold loadPresent
  split
  · exact ensures_pure valid (by simp)
  · exact finds item valid

theorem loadEntities {loadOne : Json → Run (Option Handle)}
    (finds : ∀ item, discipline.Finds cls sub (loadOne item) Option.toList) (items : List Json) :
    discipline.Finds cls sub (loadEntities loadOne items) id := by
  induction items with
  | nil => exact fun before valid => ensures_pure valid (by simp)
  | cons item rest inductionHypothesis =>
      intro before valid
      rw [loadEntities_cons]
      apply (loadPresent_finds finds item valid).bind
      intro entity? middle first served
      apply (inductionHypothesis first.valid).bind
      intro entities after second others
      apply ensures_pure second.valid
      cases entity? with
      | none => exact others
      | some entity =>
          have own := discipline.keeps second.later (served entity (by simp))
          exact List.forall_mem_cons.mpr ⟨own, others⟩

theorem loadMembers {loadOne : Json → Run (Option Handle)}
    (finds : ∀ item, discipline.Finds cls sub (loadOne item) Option.toList)
    (members : List (String × Json)) :
    discipline.Finds cls sub (loadMembers loadOne members) (List.map Prod.snd) := by
  induction members with
  | nil => exact fun before valid => ensures_pure valid (by simp)
  | cons member rest inductionHypothesis =>
      obtain ⟨key, item⟩ := member
      intro before valid
      rw [loadMembers_cons]
      apply (loadPresent_finds finds item valid).bind
      intro entity? middle first served
      apply (inductionHypothesis first.valid).bind
      intro entities after second others
      apply ensures_pure second.valid
      cases entity? with
      | none => exact others
      | some entity =>
          have own := discipline.keeps second.later (served entity (by simp))
          exact List.forall_mem_cons.mpr ⟨own, others⟩

theorem spawnAll (admitted : discipline.admits cls sub) (ids : List String) :
    discipline.Finds cls sub (spawnAll cls sub ids) id := by
  induction ids with
  | nil => exact fun before valid => ensures_pure valid (by simp)
  | cons id rest inductionHypothesis =>
      intro before valid
      rw [Run.spawnAll]
      apply (ensures_spawnAlone valid admitted).bind
      intro entity middle first serve
      apply (inductionHypothesis first.valid).bind
      intro entities after second others
      apply ensures_pure second.valid
      exact List.forall_mem_cons.mpr ⟨discipline.keeps second.later serve, others⟩

theorem spawnMap (admitted : discipline.admits cls sub) (entries : List (String × String))
    {built : OrderedMap Handle} (valid : discipline.invariant before)
    (found : ∀ entity ∈ built.map Prod.snd, discipline.serves before cls sub entity) :
    discipline.Ensures before (spawnMap cls sub built entries) fun entities after =>
      ∀ entity ∈ entities.map Prod.snd, discipline.serves after cls sub entity := by
  induction entries generalizing before built with
  | nil => exact ensures_pure valid found
  | cons entry rest inductionHypothesis =>
      obtain ⟨key, id⟩ := entry
      rw [Run.spawnMap]
      apply (ensures_spawnAlone valid admitted).bind
      intro entity middle first serve
      apply inductionHypothesis first.valid
      intro other member
      obtain ⟨⟨name, stored⟩, inSet, rfl⟩ := List.mem_map.mp member
      rcases OrderedMap.mem_set inSet with same | old
      · cases same
        exact serve
      · exact discipline.keeps first.later (found stored (List.mem_map.mpr ⟨_, old, rfl⟩))

/-- Values stay brought when a recursive field is given entities that serve the selector itself. -/
theorem brought_set {values : FieldValues} {name : String} (value : FieldValue Handle)
    (recursive : selector.isRecursive name)
    (brought : Brought (discipline.Links before cls selector) selector.resolved values)
    (serve : ∀ entity ∈ value.entities, discipline.serves before inner selector entity) :
    Brought (discipline.Links before cls selector) selector.resolved (values.set name value) := by
  intro other stored member
  rcases OrderedMap.mem_set member with same | old
  · cases same
    exact ⟨selector, Selector.mem_resolved_of_isRecursive recursive, fun entity inValue =>
      ⟨inner, .inr recursive, serve entity inValue⟩⟩
  · exact brought other stored old

theorem loadItems {plan : ListPlan} {loadField : LoadField} {below : Json → Run (List Handle)}
    (reads : discipline.Reads loadField) (embeds : discipline.embeds)
    (admitted : discipline.admits plan.cls plan.sub)
    (findsBelow : ∀ item, discipline.Finds plan.cls plan.sub (below item) id) (response : Json)
    (items : List Json) (seen : List String) :
    discipline.Finds plan.cls plan.sub (loadItems plan loadField below response seen items) id := by
  induction items generalizing seen with
  | nil => exact fun before valid => ensures_pure valid (by simp)
  | cons item rest inductionHypothesis =>
      intro before valid
      rw [Run.loadItems]
      apply ensures_ofExcept_bind valid
      intro id? _
      cases id? with
      | none => exact inductionHypothesis seen valid
      | some id =>
          have spawned {values : FieldValues} {loaded : RunState}
              (valid : discipline.invariant loaded)
              (brought : Brought (discipline.Links loaded plan.cls plan.sub) plan.sub.resolved
                values) :
              discipline.Ensures loaded (do
                let entity ← spawn plan.cls id plan.sub values false
                let entities ← Run.loadItems plan loadField below response (id :: seen) rest
                return entity :: entities) fun entities after =>
                  ∀ entity ∈ entities, discipline.serves after plan.cls plan.sub entity := by
            apply (ensures_spawn valid admitted (.inr embeds) brought).bind
            intro entity middle first serve
            apply (inductionHypothesis (id :: seen) first.valid).bind
            intro entities after second others
            apply ensures_pure second.valid
            exact List.forall_mem_cons.mpr ⟨discipline.keeps second.later serve, others⟩
          simp only
          split
          · exact inductionHypothesis seen valid
          · apply (loadValues reads (admitsBelow_of_admits admitted) valid).bind
            intro values loaded first brought
            split
            · rename_i recurs
              simp only [pure_bind]
              apply (findsBelow _ first.valid).bind
              intro children found second serve
              apply spawned second.valid
              exact brought_set (.list children) (Bool.and_eq_true_iff.mp recurs).1
                (brought_mono second.later (brought_links brought)) serve
            · rw [pure_bind]
              exact spawned first.valid (brought_links brought)

theorem loadList {plan : ListPlan} {loadField : LoadField} (reads : discipline.Reads loadField)
    (embeds : discipline.embeds) (admitted : discipline.admits plan.cls plan.sub) (depth : Nat)
    (response : Json) :
    discipline.Finds plan.cls plan.sub (loadList plan loadField depth response) id := by
  induction depth generalizing response with
  | zero => exact fun before valid => ensures_throw _ valid
  | succ depth inductionHypothesis =>
      intro before valid
      rw [Run.loadList]
      split
      · exact ensures_pure valid (by simp)
      · apply ensures_ofExcept_bind valid
        intro items _
        exact loadItems reads embeds admitted inductionHypothesis response items [] valid

theorem loadAncestors {plan : ListPlan} {loadField : LoadField}
    (reads : discipline.Reads loadField) (embeds : discipline.embeds)
    (admitted : discipline.admits plan.cls plan.sub)
    (recursive : plan.sub.isRecursive plan.field.name) (response : Json) (items : List Json)
    {nearest : Option Handle} (valid : discipline.invariant before)
    (found : ∀ entity ∈ nearest.toList, discipline.serves before plan.cls plan.sub entity) :
    discipline.Ensures before (loadAncestors plan loadField response nearest items)
      fun entity? after =>
        ∀ entity ∈ entity?.toList, discipline.serves after plan.cls plan.sub entity := by
  induction items generalizing before nearest with
  | nil => exact ensures_pure valid found
  | cons item rest inductionHypothesis =>
      rw [Run.loadAncestors]
      apply ensures_ofExcept_bind valid
      intro id? _
      cases id? with
      | none => exact inductionHypothesis valid found
      | some id =>
          apply (loadValues reads (admitsBelow_of_admits admitted) valid).bind
          intro values middle first brought
          have served : ∀ entity ∈ (oneEntity plan.field nearest).entities,
              discipline.serves middle plan.cls plan.sub entity := by
            rw [entities_oneEntity]
            exact fun entity member => discipline.keeps first.later (found entity member)
          apply (ensures_spawn first.valid admitted (.inr embeds)
            (brought_set _ recursive (brought_links brought) served)).bind
          intro entity after second serve
          exact inductionHypothesis second.valid (by simpa using serve)

theorem loadNested {plan : ListPlan} {loadField : LoadField} (reads : discipline.Reads loadField)
    (embeds : discipline.embeds) (admitted : discipline.admits plan.cls plan.sub)
    (shape : NestedShape) (response value : Json) :
    discipline.Finds plan.cls plan.sub (loadNested shape plan loadField response value)
      FieldValue.entities := by
  have one (item : Json) :=
    loadEntity reads embeds admitted plan.path plan.id (liftInto plan.lifts response item)
  intro before valid
  have single {step : Run (Option Handle)}
      (found : discipline.Ensures before step fun entity? after =>
        ∀ entity ∈ entity?.toList, discipline.serves after plan.cls plan.sub entity) :
      discipline.Ensures before (do return oneEntity plan.field (← step)) fun value after =>
        ∀ entity ∈ value.entities, discipline.serves after plan.cls plan.sub entity := by
    apply found.bind
    intro entity? after reached served
    exact ensures_pure reached.valid (by simpa using served)
  have nothing : discipline.Ensures before (pure (oneEntity plan.field none)) fun value after =>
      ∀ entity ∈ value.entities, discipline.serves after plan.cls plan.sub entity :=
    ensures_pure valid (by simp)
  cases shape with
  | single =>
      simp only [Run.loadNested]
      split
      · exact nothing
      · exact single (one value valid)
  | map =>
      rw [Run.loadNested]
      apply ensures_ofExcept_bind valid
      intro members _
      apply (loadMembers one members valid).bind
      exact fun entities after reached served => ensures_pure reached.valid served
  | list =>
      rw [Run.loadNested]
      apply (loadList reads embeds admitted _ response valid).bind
      exact fun entities after reached served => ensures_pure reached.valid served
  | ancestors =>
      rw [Run.loadNested]
      apply ensures_ofExcept_bind valid
      intro items _
      split
      · rename_i recursive
        exact single (loadAncestors reads embeds admitted recursive response items valid (by simp))
      · split
        · exact nothing
        · exact single (one _ valid)

/-- Reading a field that refers to a class spawns entities of that class. -/
def Picks (discipline : Discipline context) (field : Field) (sub : Selector)
    (step : Run (FieldValue Handle)) : Prop :=
  ∀ ⦃before⦄, discipline.invariant before → discipline.Ensures before step fun value after =>
    ∀ entity ∈ value.entities, ∃ inner, field.kind.target? = some inner ∧
      discipline.serves after inner sub entity

theorem Finds.picks {field : Field} {step : Run (FieldValue Handle)}
    (refers : field.kind.target? = some inner)
    (finds : discipline.Finds inner sub step FieldValue.entities) :
    discipline.Picks field sub step := by
  intro before valid
  apply (finds valid).mono
  exact fun value after served entity member => ⟨inner, refers, served entity member⟩

theorem withKey_picks {path key : String} {field : Field} {response : Json}
    {load : Json → Run (FieldValue Handle)}
    (picks : ∀ value, discipline.Picks field sub (load value)) :
    discipline.Picks field sub (Run.withKey path field key response load) := by
  intro before valid
  unfold Run.withKey missingKey
  split
  · split
    · exact ensures_pure valid (by simp [FieldValue.entities])
    · exact ensures_throw _ valid
  · exact picks _ valid

theorem target_picks {path : String} {field : Field} {load : ClassId → Run (FieldValue Handle)}
    (picks : ∀ inner, field.kind.target? = some inner →
      discipline.Finds inner sub (load inner) FieldValue.entities) :
    discipline.Picks field sub (ofExcept (field.target path) >>= load) := by
  intro before valid
  apply ensures_ofExcept_bind valid
  intro inner found
  have refers := Field.target_eq_ok_iff.mp found
  exact (picks inner refers).picks refers valid

mutual

theorem load (path : String) : ∀ (picker : Picker) (field : Field) (response : Json)
    {sub : Selector}, (picker.isDirect ∨ discipline.embeds) →
    (∀ inner, field.kind.target? = some inner → discipline.admits inner sub) →
    discipline.Picks field sub (picker.load path field response sub)
  | .scalar rule key, field, response, sub, _, _ => by
      rw [Picker.load]
      apply withKey_picks
      intro value before valid
      change discipline.Ensures before (match rule.apply context.lang value with
        | .ok scalar => pure (FieldValue.scalar scalar)
        | .error wanted => throw _) _
      split
      · exact ensures_pure valid (by simp [FieldValue.entities])
      · exact ensures_throw _ valid
  | .reference id, field, response, sub, _, admitted => by
      rw [Picker.load]
      apply target_picks
      intro inner refers before valid
      apply ensures_ofExcept_bind valid
      intro id? _
      cases id? with
      | none => exact ensures_pure valid (by simp)
      | some id =>
          apply (ensures_spawnAlone valid (admitted inner refers)).bind
          exact fun entity after reached serve => ensures_pure reached.valid (by simpa using serve)
  | .referenceList key, field, response, sub, _, admitted => by
      rw [Picker.load]
      apply withKey_picks
      intro value
      apply target_picks
      intro inner refers before valid
      apply ensures_ofExcept_bind valid
      intro items _
      apply (spawnAll (admitted inner refers) _ valid).bind
      exact fun entities after reached served => ensures_pure reached.valid served
  | .referenceMap key flipped, field, response, sub, _, admitted => by
      rw [Picker.load]
      apply withKey_picks
      intro value
      apply target_picks
      intro inner refers before valid
      apply ensures_ofExcept_bind valid
      intro members _
      apply (spawnMap (admitted inner refers) _ valid (by simp)).bind
      exact fun entities after reached served => ensures_pure reached.valid served
  | .inline id fields, field, response, sub, direct, admitted => by
      have embeds : discipline.embeds := direct.resolve_left (by simp [Picker.isDirect])
      have reads := loadField path fields (.inr embeds)
      rw [Picker.load]
      apply target_picks
      intro inner refers before valid
      apply (loadEntity reads embeds (admitted inner refers) path id response valid).bind
      exact fun entity? after reached served => ensures_pure reached.valid (by simpa using served)
  | .inlineList id fields, field, response, sub, direct, admitted => by
      have embeds : discipline.embeds := direct.resolve_left (by simp [Picker.isDirect])
      have reads := loadField path fields (.inr embeds)
      rw [Picker.load]
      apply target_picks
      intro inner refers before valid
      have one := loadEntity reads embeds (admitted inner refers) path id
      have all (items : List Json) : discipline.Ensures before (do
          let entities ← Run.loadEntities (fun item => Run.loadEntity path id
            (fun cls response name sub => fields.loadField path cls response name sub) inner item
            sub) items
          return FieldValue.list entities) fun value after =>
            ∀ entity ∈ value.entities, discipline.serves after inner sub entity := by
        apply (loadEntities one items valid).bind
        exact fun entities after reached served => ensures_pure reached.valid served
      cases response with
      | object members => exact all _
      | array items => exact all _
      | _ => exact ensures_throw _ valid
  | .nested shape key id fields hasSubfields lifts unique, field, response, sub, direct,
      admitted => by
      have embeds : discipline.embeds := direct.resolve_left (by simp [Picker.isDirect])
      have reads := loadField path fields (.inr embeds)
      rw [Picker.load]
      apply withKey_picks
      intro value
      apply target_picks
      intro inner refers
      exact loadNested reads embeds (admitted inner refers) shape response value

theorem loadField (path : String) : ∀ (fields : FieldPickers),
    (fields.areDirect ∨ discipline.embeds) →
    discipline.Reads fun cls response name sub => fields.loadField path cls response name sub
  | .none, _ => by
      intro cls name sub response admitted before valid
      exact ensures_pure valid (by simp)
  | .field name picker rest, direct => by
      intro cls wanted sub response admitted before valid
      have own : picker.isDirect ∨ discipline.embeds :=
        direct.imp_left fun all => (Bool.and_eq_true_iff.mp all).1
      have others : rest.areDirect ∨ discipline.embeds :=
        direct.imp_left fun all => (Bool.and_eq_true_iff.mp all).2
      simp only [FieldPickers.loadField]
      split
      · change discipline.Ensures before (match context.catalog.schema.field? cls wanted with
          | none => throw _
          | some field => do return some (← picker.load path field response sub)) _
        split
        · exact ensures_throw _ valid
        · rename_i field found
          have inside : ∀ inner, field.kind.target? = some inner → discipline.admits inner sub :=
            fun inner refers => admitted ⟨field, found, refers⟩
          apply (load path picker field response own inside valid).bind
          intro value after reached served
          apply ensures_pure reached.valid
          intro entity member
          obtain ⟨inner, refers, serve⟩ := served entity (by simpa using member)
          exact ⟨inner, ⟨field, found, refers⟩, serve⟩
      · exact loadField path rest others response admitted valid

end

end Discipline

end Run

end EntityResolver
