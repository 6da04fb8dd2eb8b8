import EntityResolver.Proofs.Run.Failures

/-!
Whether a response can be read.

The entities that a reading finds are put into the arena as it goes on, and its results refer to
them by handle, but what is read next does not depend on them. So a response can be read in every
state of a run or in none, and then for one reason.
-/

set_option autoImplicit false

namespace EntityResolver.Run

variable {context : RunContext} {α β γ δ : Type}

/-- The steps fail in the same way, whatever states they begin in. -/
def Concur (context : RunContext) (step : Run α) (twin : Run β) : Prop :=
  ∀ before start error, Fails context step before error ↔ Fails context twin start error

/-- The state in which the step begins does not matter for how it fails. -/
abbrev Uniform (context : RunContext) (step : Run α) : Prop :=
  Concur context step step

section Concur

variable {step : Run α} {twin : Run β}

theorem Concur.symm (concur : Concur context step twin) : Concur context twin step :=
  fun before start error => (concur start before error).symm

theorem concur_of_succeeds (first : ∀ before, Succeeds context step before)
    (second : ∀ before, Succeeds context twin before) : Concur context step twin :=
  fun before start _ =>
    iff_of_false (not_fails_of_succeeds (first before)) (not_fails_of_succeeds (second start))

theorem concur_pure (first : α) (second : β) :
    Concur context (pure first : Run α) (pure second : Run β) :=
  concur_of_succeeds (fun before => ⟨first, before, rfl⟩) fun before => ⟨second, before, rfl⟩

theorem concur_throw (error : ResolveError) :
    Concur context (throw error : Run α) (throw error : Run β) :=
  fun _ _ _ => by rw [fails_throw_iff, fails_throw_iff]

theorem concur_spawn (cls : ClassId) (id : String) (selector : Selector)
    (first second : FieldValues) :
    Concur context (spawn cls id selector first false) (spawn cls id selector second false) :=
  concur_of_succeeds (fun _ => succeeds_spawn _ _ _ _ _ _) fun _ => succeeds_spawn _ _ _ _ _ _

theorem Concur.bind {next : α → Run γ} {nextToo : β → Run δ} (steps : Concur context step twin)
    (rest : ∀ first second, Concur context (next first) (nextToo second)) :
    Concur context (step >>= next) (twin >>= nextToo) := by
  have oneWay {α β γ δ : Type} {step : Run α} {twin : Run β} {next : α → Run γ}
      {nextToo : β → Run δ} (steps : Concur context step twin)
      (rest : ∀ first second, Concur context (next first) (nextToo second))
      {before start : RunState} {error : ResolveError}
      (failed : Fails context (step >>= next) before error) :
      Fails context (twin >>= nextToo) start error := by
    rcases fails_bind_iff.mp failed with failed | ⟨value, middle, done, failed⟩
    · exact fails_bind_iff.mpr (.inl ((steps _ _ _).mp failed))
    · cases outcome : twin context start with
      | ok second middleToo =>
          exact fails_bind_iff.mpr
            (.inr ⟨second, middleToo, outcome, (rest _ _ _ _ _).mp failed⟩)
      | error raised state =>
          exact absurd ((steps _ _ _).mpr ⟨state, outcome⟩) (not_fails_of_succeeds done.succeeds)
  exact fun _ _ _ => ⟨oneWay steps rest, oneWay steps.symm fun first second => (rest second first).symm⟩

theorem concur_ofExcept_bind {outcome : Except ResolveError α} {next : α → Run γ}
    {nextToo : α → Run δ} (rest : ∀ value, Concur context (next value) (nextToo value)) :
    Concur context (ofExcept outcome >>= next) (ofExcept outcome >>= nextToo) := by
  cases outcome with
  | ok value => exact rest value
  | error error =>
      have same : Concur context (throw error : Run γ) (throw error : Run δ) := concur_throw error
      exact same

theorem concur_read_bind {next : RunContext → Run γ} {nextToo : RunContext → Run δ}
    (rest : Concur context (next context) (nextToo context)) :
    Concur context (read >>= next) (read >>= nextToo) :=
  rest

end Concur

section Fields

variable {loadField : LoadField}
variable (each : ∀ cls response name sub, Uniform context (loadField cls response name sub))

include each

theorem uniform_loadValues (cls : ClassId) (response : Json) (selector : Selector) :
    Uniform context (loadValues loadField cls response selector) := by
  unfold Run.loadValues
  induction selector.resolved with
  | nil => exact concur_pure _ _
  | cons entry rest inductionHypothesis =>
      exact (each cls response entry.1 entry.2).bind fun _ _ =>
        inductionHypothesis.bind fun _ _ => concur_pure _ _

theorem uniform_loadEntity (path : String) (id : IdSpec) (cls : ClassId) (response : Json)
    (selector : Selector) : Uniform context (loadEntity path id loadField cls response selector) := by
  refine concur_ofExcept_bind fun id? => ?_
  cases id? with
  | none => exact concur_pure _ _
  | some id =>
      exact (uniform_loadValues each cls response selector).bind fun _ _ =>
        (concur_spawn _ _ _ _ _).bind fun _ _ => concur_pure _ _

end Fields

section Items

variable {loadOne : Json → Run (Option Handle)} (each : ∀ item, Uniform context (loadOne item))

include each

theorem uniform_loadPresent (item : Json) : Uniform context (loadPresent loadOne item) := by
  unfold Run.loadPresent
  split
  · exact concur_pure _ _
  · exact each item

theorem uniform_loadEntities (items : List Json) :
    Uniform context (loadEntities loadOne items) := by
  induction items with
  | nil => exact concur_pure _ _
  | cons item rest inductionHypothesis =>
      rw [loadEntities_cons]
      exact (uniform_loadPresent each item).bind fun _ _ =>
        inductionHypothesis.bind fun _ _ => concur_pure _ _

theorem uniform_loadMembers (members : List (String × Json)) :
    Uniform context (loadMembers loadOne members) := by
  induction members with
  | nil => exact concur_pure _ _
  | cons member rest inductionHypothesis =>
      rw [loadMembers_cons]
      exact (uniform_loadPresent each member.2).bind fun _ _ =>
        inductionHypothesis.bind fun _ _ => concur_pure _ _

end Items

theorem uniform_spawnAll (cls : ClassId) (sub : Selector) (ids : List String) :
    Uniform context (spawnAll cls sub ids) := by
  induction ids with
  | nil => exact concur_pure _ _
  | cons id rest inductionHypothesis =>
      exact (concur_spawn _ _ _ _ _).bind fun _ _ =>
        inductionHypothesis.bind fun _ _ => concur_pure _ _

theorem concur_spawnMap (cls : ClassId) (sub : Selector) (first second : OrderedMap Handle)
    (entries : List (String × String)) :
    Concur context (spawnMap cls sub first entries) (spawnMap cls sub second entries) := by
  induction entries generalizing first second with
  | nil => exact concur_pure _ _
  | cons entry rest inductionHypothesis =>
      exact (concur_spawn _ _ _ _ _).bind fun _ _ => inductionHypothesis _ _

section Nested

variable {plan : ListPlan} {loadField : LoadField}
variable (each : ∀ cls response name sub, Uniform context (loadField cls response name sub))

include each

theorem uniform_loadItems {below : Json → Run (List Handle)}
    (further : ∀ item, Uniform context (below item)) (response : Json) (seen : List String)
    (items : List Json) : Uniform context (loadItems plan loadField below response seen items) := by
  induction items generalizing seen with
  | nil => exact concur_pure _ _
  | cons item rest inductionHypothesis =>
      refine concur_ofExcept_bind fun id? => ?_
      cases id? with
      | none => exact inductionHypothesis seen
      | some id =>
          dsimp only
          split
          · exact inductionHypothesis seen
          · refine (uniform_loadValues each _ _ _).bind fun values valuesToo => ?_
            have spawns (values valuesToo : FieldValues) : Concur context
                (do
                  let entity ← spawn plan.cls id plan.sub values false
                  let entities ← loadItems plan loadField below response (id :: seen) rest
                  return entity :: entities)
                (do
                  let entity ← spawn plan.cls id plan.sub valuesToo false
                  let entities ← loadItems plan loadField below response (id :: seen) rest
                  return entity :: entities) :=
              (concur_spawn _ _ _ _ _).bind fun _ _ =>
                (inductionHypothesis _).bind fun _ _ => concur_pure _ _
            split
            · exact (further _).bind fun _ _ => (concur_pure _ _).bind spawns
            · exact (concur_pure _ _).bind spawns

theorem uniform_loadList (depth : Nat) (response : Json) :
    Uniform context (loadList plan loadField depth response) := by
  induction depth generalizing response with
  | zero => exact concur_throw _
  | succ depth inductionHypothesis =>
      unfold Run.loadList
      split
      · exact concur_pure _ _
      · exact concur_ofExcept_bind fun items =>
          uniform_loadItems each inductionHypothesis response [] items

theorem concur_loadAncestors (response : Json) (nearest nearestToo : Option Handle)
    (items : List Json) :
    Concur context (loadAncestors plan loadField response nearest items)
      (loadAncestors plan loadField response nearestToo items) := by
  induction items generalizing nearest nearestToo with
  | nil => exact concur_pure _ _
  | cons item rest inductionHypothesis =>
      refine concur_ofExcept_bind fun id? => ?_
      cases id? with
      | none => exact inductionHypothesis _ _
      | some id =>
          exact (uniform_loadValues each _ _ _).bind fun _ _ =>
            (concur_spawn _ _ _ _ _).bind fun _ _ => inductionHypothesis _ _

theorem uniform_loadNested (shape : NestedShape) (response value : Json) :
    Uniform context (loadNested shape plan loadField response value) := by
  have loadOne (item : Json) := uniform_loadEntity each plan.path plan.id plan.cls
    (liftInto plan.lifts response item) plan.sub
  cases shape with
  | single =>
      unfold Run.loadNested
      dsimp only
      split
      · exact concur_pure _ _
      · exact (loadOne value).bind fun _ _ => concur_pure _ _
  | list => exact (uniform_loadList each _ response).bind fun _ _ => concur_pure _ _
  | map =>
      exact concur_ofExcept_bind fun members =>
        (uniform_loadMembers loadOne members).bind fun _ _ => concur_pure _ _
  | ancestors =>
      refine concur_ofExcept_bind fun items => ?_
      dsimp only
      split
      · exact (concur_loadAncestors each response none none items).bind fun _ _ => concur_pure _ _
      · split
        · exact concur_pure _ _
        · exact (loadOne _).bind fun _ _ => concur_pure _ _

end Nested

theorem uniform_withKey {load : Json → Run (FieldValue Handle)}
    (each : ∀ value, Uniform context (load value)) (path key : String) (field : Field)
    (response : Json) : Uniform context (withKey path field key response load) := by
  unfold Run.withKey
  split
  · cases missingKey path field key with
    | ok value => exact concur_pure _ _
    | error error => exact concur_throw _
  · exact each _

mutual

theorem uniform_picker (path : String) :
    (picker : Picker) → (field : Field) → (response : Json) → (sub : Selector) →
    Uniform context (picker.load path field response sub)
  | .scalar rule key, field, response, _ => by
      refine uniform_withKey (fun value => concur_read_bind ?_) path key field response
      split
      · exact concur_pure _ _
      · exact concur_throw _
  | .reference id, field, response, sub => by
      refine concur_ofExcept_bind fun cls => concur_ofExcept_bind fun id? => ?_
      cases id? with
      | none => exact concur_pure _ _
      | some id => exact (concur_spawn _ _ _ _ _).bind fun _ _ => concur_pure _ _
  | .referenceList key, field, response, sub =>
      uniform_withKey (fun _ => concur_ofExcept_bind fun _ => concur_ofExcept_bind fun _ =>
        (uniform_spawnAll _ _ _).bind fun _ _ => concur_pure _ _) path key field response
  | .referenceMap key flipped, field, response, sub =>
      uniform_withKey (fun _ => concur_ofExcept_bind fun _ => concur_ofExcept_bind fun _ =>
        (concur_spawnMap _ _ _ _ _).bind fun _ _ => concur_pure _ _) path key field response
  | .inline id fields, field, response, sub =>
      concur_ofExcept_bind fun cls =>
        (uniform_loadEntity (uniform_loadField path fields) path id cls response sub).bind
          fun _ _ => concur_pure _ _
  | .inlineList id fields, field, response, sub => by
      refine concur_ofExcept_bind fun cls => ?_
      have each (item : Json) : Uniform context (loadEntity path id
          (fun cls response name sub => fields.loadField path cls response name sub) cls item sub) :=
        uniform_loadEntity (uniform_loadField path fields) path id cls item sub
      dsimp only
      split
      · exact (uniform_loadEntities each _).bind fun _ _ => concur_pure _ _
      · exact (uniform_loadEntities each _).bind fun _ _ => concur_pure _ _
      · exact concur_throw _
  | .nested shape key id fields _ lifts unique, field, response, sub =>
      uniform_withKey (fun value => concur_ofExcept_bind fun cls =>
        uniform_loadNested (uniform_loadField path fields) shape response value)
        path key field response

theorem uniform_loadField (path : String) :
    (fields : FieldPickers) → (cls : ClassId) → (response : Json) → (name : String) →
    (sub : Selector) → Uniform context (fields.loadField path cls response name sub)
  | .none, _, _, _, _ => concur_pure _ _
  | .field other picker rest, cls, response, name, sub => by
      unfold FieldPickers.loadField
      split
      · refine concur_read_bind ?_
        split
        · exact concur_throw _
        · exact (uniform_picker path picker _ response sub).bind fun _ _ => concur_pure _ _
      · exact uniform_loadField path rest cls response name sub

end

end EntityResolver.Run
