import EntityResolver.Proofs.Twin.Steps

/-!
Reading the same response in two languages.

Both runs spawn the same entities, and what they read for a field suits it, if the picker is
trusted.
-/

set_option autoImplicit false

namespace EntityResolver

theorem harmless_bind {α β : Type} {outcome : Except ResolveError α}
    {next : α → Except ResolveError β} (first : Harmless outcome)
    (rest : ∀ value, Harmless (next value)) : Harmless (outcome >>= next) := by
  cases outcome with
  | ok value => exact rest value
  | error error =>
      rintro _ ⟨⟩
      exact first _ rfl

theorem harmless_ok {α : Type} (value : α) : Harmless (.ok value) :=
  nofun

theorem harmless_malformed {α : Type} (path : String) (malformation : Malformation) :
    Harmless (.error (.malformed path malformation) : Except ResolveError α) := by
  rintro _ ⟨⟩
  exact id

theorem harmless_value {α : Type} (outcome : Except ValueError α) :
    Harmless (liftError .value outcome) := by
  cases outcome with
  | ok value => exact harmless_ok value
  | error error =>
      rintro _ ⟨⟩
      exact id

theorem harmless_lookUp (path : String) (response : Json) (key : String) :
    Harmless (IdSpec.lookUp path response key) := by
  unfold IdSpec.lookUp
  split
  · exact harmless_ok _
  · exact harmless_malformed _ _

theorem harmless_lookUpTexts (path : String) (response : Json) (keys : List String) :
    Harmless (IdSpec.lookUpTexts path response keys) := by
  induction keys with
  | nil => exact harmless_ok _
  | cons key rest inductionHypothesis =>
      apply harmless_bind (harmless_lookUp path response key)
      intro value
      apply harmless_bind inductionHypothesis
      exact fun texts => harmless_ok _

theorem harmless_load (spec : IdSpec) (path : String) (response : Json) :
    Harmless (spec.load path response) := by
  cases spec with
  | elementary key =>
      apply harmless_bind (harmless_lookUp path response key)
      exact fun value => harmless_ok _
  | composite keys =>
      apply harmless_bind (harmless_lookUpTexts path response keys)
      exact fun texts => harmless_ok _

theorem Schema.name_of_field? {schema : Schema} {cls : ClassId} {name : String} {field : Field}
    (found : schema.field? cls name = some field) : field.name = name := by
  obtain ⟨_, _, search⟩ := Option.bind_eq_some_iff.mp found
  simpa using List.find?_some search

namespace Run

theorem harmless_itemsOf (path key : String) (value : Json) :
    Harmless (itemsOf path key value) := by
  unfold itemsOf
  split
  · exact harmless_ok _
  · exact harmless_ok _
  · exact harmless_malformed _ _

theorem harmless_membersOf (path key : String) (value : Json) :
    Harmless (membersOf path key value) := by
  unfold membersOf
  split
  · exact harmless_ok _
  · exact harmless_ok _
  · exact harmless_malformed _ _

theorem shape_oneEntity (field : Field) (entity? : Option Handle) :
    (oneEntity field entity?).shape = oneEntity field (entity?.map fun _ => ()) := by
  unfold oneEntity
  cases field.kind <;> cases entity? <;> rfl

namespace Pairing

variable {context : RunContext} {other : Lang} {pairing : Pairing context other}
variable {before : RunState × RunState} {cls inner : ClassId} {name path : String}
variable {sub selector : Selector} {field : Field} {picker : Picker} {α : Type}

/-- Reading a field gives what suits it, or nothing in both runs. -/
def Reads (pairing : Pairing context other) (cls : ClassId) (loadField : LoadField) : Prop :=
  ∀ ⦃name sub⦄ response, pairing.Selects cls name sub → ∀ ⦃before⦄, pairing.Paired before →
    pairing.Joins before (loadField cls response name sub) (loadField cls response name sub)
      fun one two after => Option.Rel (pairing.Suits after.1.arena cls name) one two

def Finds (pairing : Pairing context other) (inner : ClassId) (step : Run α)
    (entities : α → List Handle) : Prop :=
  ∀ ⦃before⦄, pairing.Paired before → pairing.Joins before step step fun one two after =>
    one = two ∧ ∀ entity ∈ entities one, Hosts after.1.arena inner entity

def Picks (pairing : Pairing context other) (cls : ClassId) (name : String)
    (step : Run (FieldValue Handle)) : Prop :=
  ∀ ⦃before⦄, pairing.Paired before → pairing.Joins before step step fun one two after =>
    pairing.Suits after.1.arena cls name one two

/-- What the picker gives for a recursive field also suits the field of the entities found. -/
def Relays (pairing : Pairing context other) (plan : ListPlan) (picker : Picker) : Prop :=
  plan.sub.isRecursive plan.field.name = true → ∀ arena value, picker.Gives plan.field value.shape →
    (∀ entity ∈ value.entities, Hosts arena plan.cls entity) →
      pairing.Suits arena plan.cls plan.field.name value value

theorem selects_of_mem (admitted : pairing.admits cls selector)
    (selected : (name, sub) ∈ selector.resolved) : pairing.Selects cls name sub :=
  fun _ refers => pairing.below admitted selected refers

theorem joins_loadSelected {loadField : LoadField} (reads : pairing.Reads cls loadField)
    {response : Json} {fields : List (String × Selector)}
    (selects : ∀ name sub, (name, sub) ∈ fields → pairing.Selects cls name sub)
    (valid : pairing.Paired before) :
    pairing.Joins before (loadSelected loadField cls response fields)
      (loadSelected loadField cls response fields) fun one two after =>
        pairing.Brings after.1.arena cls one two := by
  induction fields generalizing before with
  | nil => exact joins_pure valid .nil
  | cons entry rest inductionHypothesis =>
      obtain ⟨name, sub⟩ := entry
      rw [loadSelected]
      apply (reads response (selects name sub List.mem_cons_self) valid).bind
      intro value? valueToo? middle first found
      apply (inductionHypothesis
        (fun name sub member => selects name sub (List.mem_cons_of_mem _ member)) first.valid).bind
      intro others othersToo after second brings
      apply joins_pure second.valid
      cases found with
      | none => exact brings
      | some suits => exact .cons ⟨rfl, suits.mono second.later⟩ brings

theorem joins_loadValues {loadField : LoadField} (reads : pairing.Reads cls loadField)
    {response : Json} (admitted : pairing.admits cls selector) (valid : pairing.Paired before) :
    pairing.Joins before (loadValues loadField cls response selector)
      (loadValues loadField cls response selector) fun one two after =>
        pairing.Brings after.1.arena cls one two :=
  joins_loadSelected reads (fun _ _ member => selects_of_mem admitted member) valid

theorem finds_loadEntity {loadField : LoadField} (reads : pairing.Reads cls loadField)
    (admitted : pairing.admits cls selector) (path : String) (id : IdSpec) (response : Json) :
    pairing.Finds cls (loadEntity path id loadField cls response selector) Option.toList := by
  intro before valid
  rw [loadEntity]
  apply joins_harmless_bind valid (harmless_load id path response)
  intro id? _
  cases id? with
  | none => exact joins_pure valid ⟨rfl, by simp⟩
  | some id =>
      apply (joins_loadValues reads admitted valid).bind
      intro values valuesToo middle first brings
      apply (joins_spawn first.valid admitted brings).bind
      rintro entity _ after second ⟨rfl, known⟩
      exact joins_pure second.valid ⟨rfl, by simpa using known⟩

theorem finds_loadPresent {loadOne : Json → Run (Option Handle)}
    (one : ∀ item, pairing.Finds cls (loadOne item) Option.toList) (item : Json) :
    pairing.Finds cls (loadPresent loadOne item) Option.toList := by
  intro before valid
  unfold loadPresent
  split
  · exact joins_pure valid ⟨rfl, by simp⟩
  · exact one item valid

theorem finds_loadEntities {loadOne : Json → Run (Option Handle)}
    (one : ∀ item, pairing.Finds cls (loadOne item) Option.toList) (items : List Json) :
    pairing.Finds cls (loadEntities loadOne items) id := by
  induction items with
  | nil => exact fun before valid => joins_pure valid ⟨rfl, by simp⟩
  | cons item rest inductionHypothesis =>
      intro before valid
      rw [loadEntities_cons]
      apply (finds_loadPresent one item valid).bind
      rintro entity? _ middle first ⟨rfl, known⟩
      apply (inductionHypothesis first.valid).bind
      rintro entities _ after second ⟨rfl, others⟩
      apply joins_pure second.valid
      refine ⟨rfl, fun entity member => ?_⟩
      cases entity? with
      | none => exact others entity member
      | some head =>
          rcases List.mem_cons.mp member with rfl | inRest
          · exact second.later _ _ (known entity (by simp))
          · exact others entity inRest

theorem finds_loadMembers {loadOne : Json → Run (Option Handle)}
    (one : ∀ item, pairing.Finds cls (loadOne item) Option.toList)
    (members : List (String × Json)) :
    pairing.Finds cls (loadMembers loadOne members) fun entities => entities.map Prod.snd := by
  induction members with
  | nil => exact fun before valid => joins_pure valid ⟨rfl, by simp⟩
  | cons member rest inductionHypothesis =>
      obtain ⟨key, item⟩ := member
      intro before valid
      rw [loadMembers_cons]
      apply (finds_loadPresent one item valid).bind
      rintro entity? _ middle first ⟨rfl, known⟩
      apply (inductionHypothesis first.valid).bind
      rintro entities _ after second ⟨rfl, others⟩
      apply joins_pure second.valid
      refine ⟨rfl, fun entity member => ?_⟩
      cases entity? with
      | none => exact others entity member
      | some head =>
          rcases List.mem_cons.mp member with rfl | inRest
          · exact second.later _ _ (known _ (by simp))
          · exact others entity inRest

theorem finds_spawn (admitted : pairing.admits cls sub) (id : String) :
    pairing.Finds cls (spawn cls id sub [] false) fun entity => [entity] := by
  intro before valid
  apply (joins_spawn valid admitted .nil).mono
  rintro entity _ after ⟨rfl, known⟩
  exact ⟨rfl, by simpa using known⟩

theorem finds_spawnAll (admitted : pairing.admits cls sub) (ids : List String) :
    pairing.Finds cls (spawnAll cls sub ids) id := by
  induction ids with
  | nil => exact fun before valid => joins_pure valid ⟨rfl, by simp⟩
  | cons id rest inductionHypothesis =>
      intro before valid
      rw [spawnAll]
      apply (joins_spawn valid admitted .nil).bind
      rintro entity _ middle first ⟨rfl, known⟩
      apply (inductionHypothesis first.valid).bind
      rintro entities _ after second ⟨rfl, others⟩
      apply joins_pure second.valid
      exact ⟨rfl, List.forall_mem_cons.mpr ⟨second.later _ _ known, others⟩⟩

theorem joins_spawnMap (admitted : pairing.admits cls sub) (ids : List (String × String))
    {built : OrderedMap Handle} (valid : pairing.Paired before)
    (known : ∀ entry ∈ built, Hosts before.1.arena cls entry.2) :
    pairing.Joins before (spawnMap cls sub built ids) (spawnMap cls sub built ids)
      fun one two after => one = two ∧ ∀ entry ∈ one, Hosts after.1.arena cls entry.2 := by
  induction ids generalizing before built with
  | nil => exact joins_pure valid ⟨rfl, known⟩
  | cons entry rest inductionHypothesis =>
      obtain ⟨key, id⟩ := entry
      rw [spawnMap]
      apply (joins_spawn valid admitted .nil).bind
      rintro entity _ middle first ⟨rfl, fresh⟩
      apply inductionHypothesis first.valid
      intro entry member
      rcases OrderedMap.mem_set member with rfl | old
      · exact fresh
      · exact first.later _ _ (known entry old)

theorem finds_spawnMap (admitted : pairing.admits cls sub) (ids : List (String × String)) :
    pairing.Finds cls (spawnMap cls sub [] ids) fun entities => entities.map Prod.snd := by
  intro before valid
  apply (joins_spawnMap admitted ids valid (by simp)).mono
  rintro entities _ after ⟨rfl, known⟩
  exact ⟨rfl, List.forall_mem_map.mpr known⟩

theorem finds_loadItems {plan : ListPlan} {loadField : LoadField}
    {below : Json → Run (List Handle)} (reads : pairing.Reads plan.cls loadField)
    (admitted : pairing.admits plan.cls plan.sub) (relays : pairing.Relays plan picker)
    (gives : ∀ entities, picker.Gives plan.field (.list entities))
    (findsBelow : ∀ item, pairing.Finds plan.cls (below item) id) (response : Json)
    (items : List Json) (seen : List String) :
    pairing.Finds plan.cls (loadItems plan loadField below response seen items) id := by
  induction items generalizing seen with
  | nil => exact fun before valid => joins_pure valid ⟨rfl, by simp⟩
  | cons item rest inductionHypothesis =>
      intro before valid
      rw [loadItems]
      apply joins_harmless_bind valid (harmless_load _ _ _)
      intro id? _
      cases id? with
      | none => exact inductionHypothesis seen valid
      | some id =>
          have spawned {loaded : RunState × RunState} {values valuesToo : FieldValues}
              (valid : pairing.Paired loaded)
              (brings : pairing.Brings loaded.1.arena plan.cls values valuesToo) :
              pairing.Joins loaded
                (do
                  let entity ← spawn plan.cls id plan.sub values false
                  let entities ← loadItems plan loadField below response (id :: seen) rest
                  return entity :: entities)
                (do
                  let entity ← spawn plan.cls id plan.sub valuesToo false
                  let entities ← loadItems plan loadField below response (id :: seen) rest
                  return entity :: entities) fun one two after =>
                    one = two ∧ ∀ entity ∈ one, Hosts after.1.arena plan.cls entity := by
            apply (joins_spawn valid admitted brings).bind
            rintro entity _ middle first ⟨rfl, known⟩
            apply (inductionHypothesis (id :: seen) first.valid).bind
            rintro entities _ after second ⟨rfl, others⟩
            apply joins_pure second.valid
            exact ⟨rfl, List.forall_mem_cons.mpr ⟨second.later _ _ known, others⟩⟩
          simp only
          split
          · exact inductionHypothesis seen valid
          · apply (joins_loadValues reads admitted valid).bind
            intro values valuesToo loaded first brings
            split
            · rename_i recurs
              simp only [pure_bind]
              apply (findsBelow _ first.valid).bind
              rintro children _ found second ⟨rfl, known⟩
              apply spawned second.valid
              apply OrderedMap.Matched.set (brings.mono second.later)
              exact relays (Bool.and_eq_true_iff.mp recurs).1 _ _ (gives _) known
            · simp only [pure_bind]
              exact spawned first.valid brings

theorem finds_loadList {plan : ListPlan} {loadField : LoadField}
    (reads : pairing.Reads plan.cls loadField) (admitted : pairing.admits plan.cls plan.sub)
    (relays : pairing.Relays plan picker)
    (gives : ∀ entities, picker.Gives plan.field (.list entities)) (depth : Nat) (response : Json) :
    pairing.Finds plan.cls (loadList plan loadField depth response) id := by
  induction depth generalizing response with
  | zero => exact fun before valid => joins_malformed valid
  | succ depth inductionHypothesis =>
      intro before valid
      rw [loadList]
      split
      · exact joins_pure valid ⟨rfl, by simp⟩
      · apply joins_harmless_bind valid (harmless_itemsOf _ _ _)
        intro items _
        exact finds_loadItems reads admitted relays gives inductionHypothesis response items [] valid

theorem joins_loadAncestors {plan : ListPlan} {loadField : LoadField}
    (reads : pairing.Reads plan.cls loadField) (admitted : pairing.admits plan.cls plan.sub)
    (relays : pairing.Relays plan picker) (recursive : plan.sub.isRecursive plan.field.name = true)
    (gives : ∀ entity? : Option Handle, picker.Gives plan.field (oneEntity plan.field entity?).shape)
    (response : Json) (items : List Json) {nearest : Option Handle} (valid : pairing.Paired before)
    (known : ∀ entity ∈ nearest.toList, Hosts before.1.arena plan.cls entity) :
    pairing.Joins before (loadAncestors plan loadField response nearest items)
      (loadAncestors plan loadField response nearest items) fun one two after =>
        one = two ∧ ∀ entity ∈ one.toList, Hosts after.1.arena plan.cls entity := by
  induction items generalizing before nearest with
  | nil => exact joins_pure valid ⟨rfl, known⟩
  | cons item rest inductionHypothesis =>
      rw [loadAncestors]
      apply joins_harmless_bind valid (harmless_load _ _ _)
      intro id? _
      cases id? with
      | none => exact inductionHypothesis valid known
      | some id =>
          apply (joins_loadValues reads admitted valid).bind
          intro values valuesToo middle first brings
          have suits : pairing.Suits middle.1.arena plan.cls plan.field.name
              (oneEntity plan.field nearest) (oneEntity plan.field nearest) := by
            apply relays recursive
            · exact gives nearest
            · rw [entities_oneEntity]
              exact fun entity member => first.later _ _ (known entity member)
          apply (joins_spawn first.valid admitted (OrderedMap.Matched.set brings suits)).bind
          rintro entity _ after second ⟨rfl, fresh⟩
          exact inductionHypothesis second.valid (by simpa using fresh)

theorem picks_of_finds {step : Run α} {entities : α → List Handle} {wrap : α → FieldValue Handle}
    (trusted : pairing.trusts cls field.name picker)
    (found : context.catalog.schema.field? cls field.name = some field)
    (refers : field.kind.target? = some inner)
    (gives : ∀ result, picker.Gives field (wrap result).shape)
    (same : ∀ result, (wrap result).entities = entities result)
    (finds : pairing.Finds inner step entities) :
    pairing.Picks cls field.name (do return wrap (← step)) := by
  intro before valid
  apply (finds valid).bind
  rintro result _ after reached ⟨rfl, known⟩
  apply joins_pure reached.valid
  apply suits_of_holds (pairing.gives trusted found (gives result))
  intro entity member
  rw [same] at member
  exact ⟨inner, pairing.linked trusted ⟨field, found, refers⟩, known entity member⟩

theorem relays_of_selects {plan : ListPlan}
    (trusted : pairing.trusts cls plan.field.name picker)
    (found : context.catalog.schema.field? cls plan.field.name = some plan.field)
    (refers : plan.field.kind.target? = some plan.cls)
    (selects : pairing.Selects cls plan.field.name plan.sub) : pairing.Relays plan picker := by
  intro recursive arena value gives known
  have refersTo : context.catalog.schema.Refers cls plan.field.name plan.cls :=
    ⟨plan.field, found, refers⟩
  obtain ⟨holds, links⟩ := (selects plan.cls refersTo).2 recursive
  apply suits_of_holds (holds _ (pairing.gives trusted found gives))
  exact fun entity member =>
    ⟨plan.cls, links _ (pairing.linked trusted refersTo), known entity member⟩

abbrev nestedPicker (shape : NestedShape) (plan : ListPlan) (fields : FieldPickers)
    (hasSubfields : Bool) : Picker :=
  .nested shape plan.key plan.id fields hasSubfields plan.lifts plan.unique

theorem picks_loadNested {shape : NestedShape} {plan : ListPlan} {fields : FieldPickers}
    {hasSubfields : Bool} {loadField : LoadField} (reads : pairing.Reads plan.cls loadField)
    (trusted : pairing.trusts cls plan.field.name (nestedPicker shape plan fields hasSubfields))
    (found : context.catalog.schema.field? cls plan.field.name = some plan.field)
    (refers : plan.field.kind.target? = some plan.cls)
    (selects : pairing.Selects cls plan.field.name plan.sub) (response value : Json) :
    pairing.Picks cls plan.field.name (loadNested shape plan loadField response value) := by
  have admitted := (selects plan.cls ⟨plan.field, found, refers⟩).1
  have relays := relays_of_selects trusted found refers selects
  have one (item : Json) :=
    finds_loadEntity reads admitted plan.path plan.id (liftInto plan.lifts response item)
  intro before valid
  have single {step : Run (Option Handle)} (finds : pairing.Finds plan.cls step Option.toList)
      (gives : ∀ entity?, (nestedPicker shape plan fields hasSubfields).Gives plan.field
        (oneEntity plan.field entity?)) :
      pairing.Picks cls plan.field.name (do return oneEntity plan.field (← step)) := by
    apply picks_of_finds trusted found refers ?_ (fun _ => entities_oneEntity _ _) finds
    intro entity?
    rw [shape_oneEntity]
    exact gives _
  have nothing (gives : ∀ entity?, (nestedPicker shape plan fields hasSubfields).Gives plan.field
      (oneEntity plan.field entity?)) :
      pairing.Picks cls plan.field.name (pure (oneEntity plan.field none)) := by
    have finds : pairing.Finds plan.cls (pure none) Option.toList :=
      fun before valid => joins_pure valid ⟨rfl, by simp⟩
    exact single finds gives
  cases shape with
  | single =>
      simp only [loadNested]
      split
      · exact nothing (fun entity? => ⟨entity?, rfl⟩) valid
      · exact single (one value) (fun entity? => ⟨entity?, rfl⟩) valid
  | map =>
      rw [loadNested]
      apply joins_harmless_bind valid (harmless_membersOf _ _ _)
      intro members _
      exact picks_of_finds trusted found refers (fun _ => ⟨_, rfl⟩) (fun _ => rfl)
        (finds_loadMembers one members) valid
  | list =>
      rw [loadNested]
      exact picks_of_finds trusted found refers (fun _ => ⟨_, rfl⟩) (fun _ => rfl)
        (finds_loadList reads admitted relays (fun entities => ⟨entities, rfl⟩) _ response) valid
  | ancestors =>
      rw [loadNested]
      apply joins_harmless_bind valid (harmless_itemsOf _ _ _)
      intro items _
      split
      · rename_i recursive
        have gives (entity? : Option Handle) : (nestedPicker .ancestors plan fields
            hasSubfields).Gives plan.field (oneEntity plan.field entity?).shape :=
          ⟨entity?.map fun _ => (), shape_oneEntity plan.field entity?⟩
        exact single (fun before valid =>
          joins_loadAncestors reads admitted relays recursive gives response items valid (by simp))
          (fun entity? => ⟨entity?, rfl⟩) valid
      · split
        · exact nothing (fun entity? => ⟨entity?, rfl⟩) valid
        · exact single (one _) (fun entity? => ⟨entity?, rfl⟩) valid

theorem picks_withKey {key : String} {response : Json} {load : Json → Run (FieldValue Handle)}
    (trusted : pairing.trusts cls name picker)
    (picks : ∀ value, pairing.Picks cls name (load value)) :
    pairing.Picks cls name (withKey path field key response load) := by
  intro before valid
  unfold withKey missingKey
  split
  · split
    · exact joins_pure valid
        (suits_of_holds (pairing.missing trusted) (fun _ member => by cases member))
    · exact joins_malformed valid
  · exact picks _ valid

theorem picks_target {load : ClassId → Run (FieldValue Handle)}
    (trusted : pairing.trusts cls field.name picker)
    (found : context.catalog.schema.field? cls field.name = some field)
    (other : ∀ rule key, picker ≠ .scalar rule key)
    (picks : ∀ inner, field.kind.target? = some inner → pairing.Picks cls field.name (load inner)) :
    pairing.Picks cls field.name (ofExcept (field.target path) >>= load) := by
  intro before valid
  apply joins_ofExcept_bind valid
  · intro error failed
    unfold Field.target at failed
    split at failed
    · cases failed
    · rename_i unreferred
      cases failed
      rcases pairing.refers trusted found unreferred with ⟨rule, key, same⟩ | permits
      · exact absurd same (other rule key)
      · exact permits _
  · exact fun inner refers => picks inner (Field.target_eq_ok_iff.mp refers) valid

def Trusts (pairing : Pairing context other) (cls : ClassId) (fields : FieldPickers) : Prop :=
  ∀ name picker, fields.find? name = some picker → pairing.trusts cls name picker

section Loading

variable {key : String} {response : Json}

theorem picks_scalar {rule : ScalarRule} (trusted : pairing.trusts cls name (.scalar rule key)) :
    pairing.Picks cls name ((Picker.scalar rule key).load path field response sub) := by
  apply picks_withKey trusted
  intro value before valid
  apply joins_read_bind
  rcases rule.apply_cases context.lang (context.inLang other).lang value with
    ⟨one, two, here, there⟩ | ⟨wanted, here, there⟩
  · rw [here, there]
    apply joins_pure valid
    refine ⟨?_, fun _ member => by cases member⟩
    rcases pairing.scalars trusted here there with ⟨rfl, holds⟩ | apart
    · exact .same holds
    · exact .apart apart
  · rw [here, there]
    exact joins_malformed valid

variable (found : context.catalog.schema.field? cls field.name = some field)
variable (selects : pairing.Selects cls field.name sub)
include found selects

theorem picks_reference {id : IdSpec} (trusted : pairing.trusts cls field.name (.reference id)) :
    pairing.Picks cls field.name ((Picker.reference id).load path field response sub) := by
  apply picks_target trusted found nofun
  intro inner refers before valid
  have admitted := (selects inner ⟨field, found, refers⟩).1
  apply joins_harmless_bind valid (harmless_load _ _ _)
  intro id? _
  cases id? with
  | none =>
      apply joins_pure valid
      apply suits_of_holds (pairing.gives trusted found ⟨none, shape_oneEntity field none⟩)
      simp [Linked]
  | some id =>
      exact picks_of_finds trusted found refers
        (fun entity => ⟨_, shape_oneEntity _ (some entity)⟩)
        (fun _ => entities_oneEntity _ _) (finds_spawn admitted id) valid

theorem picks_referenceList (trusted : pairing.trusts cls field.name (.referenceList key)) :
    pairing.Picks cls field.name ((Picker.referenceList key).load path field response sub) := by
  apply picks_withKey trusted
  intro value
  apply picks_target trusted found nofun
  intro inner refers before valid
  have admitted := (selects inner ⟨field, found, refers⟩).1
  apply joins_harmless_bind valid (harmless_itemsOf _ _ _)
  intro items _
  exact picks_of_finds trusted found refers (fun _ => ⟨_, rfl⟩) (fun _ => rfl)
    (finds_spawnAll admitted _) valid

theorem picks_referenceMap {flipped : Bool}
    (trusted : pairing.trusts cls field.name (.referenceMap key flipped)) :
    pairing.Picks cls field.name
      ((Picker.referenceMap key flipped).load path field response sub) := by
  apply picks_withKey trusted
  intro value
  apply picks_target trusted found nofun
  intro inner refers before valid
  have admitted := (selects inner ⟨field, found, refers⟩).1
  apply joins_harmless_bind valid (harmless_membersOf _ _ _)
  intro members _
  exact picks_of_finds trusted found refers (fun _ => ⟨_, rfl⟩) (fun _ => rfl)
    (finds_spawnMap admitted _) valid

variable {id : IdSpec} {fields : FieldPickers}

theorem picks_inline (trusted : pairing.trusts cls field.name (.inline id fields))
    (reads : ∀ inner, context.catalog.schema.Refers cls field.name inner →
      pairing.Reads inner fun cls response name sub =>
        fields.loadField path cls response name sub) :
    pairing.Picks cls field.name ((Picker.inline id fields).load path field response sub) := by
  rw [Picker.load]
  apply picks_target trusted found nofun
  intro inner refers
  have refersTo : context.catalog.schema.Refers cls field.name inner := ⟨field, found, refers⟩
  exact picks_of_finds trusted found refers (fun entity? => ⟨_, shape_oneEntity _ _⟩)
    (fun _ => entities_oneEntity _ _)
    (finds_loadEntity (reads inner refersTo) (selects inner refersTo).1 path id response)

theorem picks_inlineList (trusted : pairing.trusts cls field.name (.inlineList id fields))
    (reads : ∀ inner, context.catalog.schema.Refers cls field.name inner →
      pairing.Reads inner fun cls response name sub =>
        fields.loadField path cls response name sub) :
    pairing.Picks cls field.name ((Picker.inlineList id fields).load path field response sub) := by
  rw [Picker.load]
  apply picks_target trusted found nofun
  intro inner refers
  have refersTo : context.catalog.schema.Refers cls field.name inner := ⟨field, found, refers⟩
  have one := finds_loadEntity (reads inner refersTo) (selects inner refersTo).1 path id
  have all (items : List Json) : pairing.Picks cls field.name _ :=
    picks_of_finds trusted found refers (fun entities => ⟨_, FieldValue.shape_list entities⟩)
      (fun _ => rfl) (finds_loadEntities one items)
  intro before valid
  cases response with
  | object members => exact all _ valid
  | array items => exact all _ valid
  | _ => exact joins_malformed valid

theorem picks_nested {shape : NestedShape} {hasSubfields unique : Bool}
    {lifts : List (String × String)}
    (trusted : pairing.trusts cls field.name
      (.nested shape key id fields hasSubfields lifts unique))
    (reads : ∀ inner, context.catalog.schema.Refers cls field.name inner →
      pairing.Reads inner fun cls response name sub =>
        fields.loadField path cls response name sub) :
    pairing.Picks cls field.name ((Picker.nested shape key id fields hasSubfields lifts
      unique).load path field response sub) := by
  rw [Picker.load]
  apply picks_withKey trusted
  intro value
  apply picks_target trusted found nofun
  intro inner refers
  exact picks_loadNested (reads inner ⟨field, found, refers⟩) trusted found refers selects
    response value

end Loading

mutual

theorem picks_load (path : String) : ∀ (picker : Picker) {cls : ClassId} {field : Field}
    (response : Json) {sub : Selector}, pairing.trusts cls field.name picker →
    context.catalog.schema.field? cls field.name = some field →
    pairing.Selects cls field.name sub →
    pairing.Picks cls field.name (picker.load path field response sub)
  | .scalar _ _, _, _, _, _, trusted, _, _ => picks_scalar trusted
  | .reference _, _, _, _, _, trusted, found, selects => picks_reference found selects trusted
  | .referenceList _, _, _, _, _, trusted, found, selects =>
      picks_referenceList found selects trusted
  | .referenceMap _ _, _, _, _, _, trusted, found, selects =>
      picks_referenceMap found selects trusted
  | .inline _ fields, _, _, _, _, trusted, found, selects => by
      apply picks_inline found selects trusted
      exact fun inner refers name sub response selects before valid =>
        joins_loadField path fields response
          (fun _ inside => pairing.inside trusted refers inside) selects valid
  | .inlineList _ fields, _, _, _, _, trusted, found, selects => by
      apply picks_inlineList found selects trusted
      exact fun inner refers name sub response selects before valid =>
        joins_loadField path fields response
          (fun _ inside => pairing.inside trusted refers inside) selects valid
  | .nested _ _ _ fields _ _ _, _, _, _, _, trusted, found, selects => by
      apply picks_nested found selects trusted
      exact fun inner refers name sub response selects before valid =>
        joins_loadField path fields response
          (fun _ inside => pairing.inside trusted refers inside) selects valid

theorem joins_loadField (path : String) : ∀ (fields : FieldPickers) {cls : ClassId}
    {wanted : String} (response : Json) {sub : Selector} {before : RunState × RunState},
    (∀ picker, fields.find? wanted = some picker → pairing.trusts cls wanted picker) →
    pairing.Selects cls wanted sub → pairing.Paired before →
    pairing.Joins before (fields.loadField path cls response wanted sub)
      (fields.loadField path cls response wanted sub) fun one two after =>
        Option.Rel (pairing.Suits after.1.arena cls wanted) one two
  | .none, cls, wanted, response, sub, before, trusted, selects, valid => joins_pure valid .none
  | .field name picker rest, cls, wanted, response, sub, before, trusted, selects, valid => by
      simp only [FieldPickers.find?] at trusted
      simp only [FieldPickers.loadField]
      split
      · rename_i here
        rw [if_pos here] at trusted
        have own := trusted picker rfl
        apply joins_schema_bind
        split
        · rename_i unknown
          exact joins_throw valid (pairing.known own unknown _)
        · rename_i field found
          obtain rfl := Schema.name_of_field? found
          apply (picks_load path picker response own found selects valid).bind
          exact fun one two after reached suits => joins_pure reached.valid (.some suits)
      · rename_i there
        rw [if_neg there] at trusted
        exact joins_loadField path rest response trusted selects valid

end

end Pairing

end Run

end EntityResolver
