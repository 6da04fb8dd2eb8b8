import EntityResolver.Proofs.Run.Composed
import EntityResolver.Proofs.Run.Invariant
import EntityResolver.Proofs.Run.Learning

/-!
Reading responses only adds to what a run knows.

Whatever is read, entities keep their classes and ids, what was not spawned stays as it is, and the
outputs are left alone. Reading may fail, but never for an entity that does not exist: only a round
finds out about that.
-/

set_option autoImplicit false

namespace EntityResolver

namespace RunState

variable {before middle after state : RunState} {lost lostToo : Handle → Prop}

/-- The entity was put into the arena, but not spawned. -/
def Shelved (state : RunState) (entity : Handle) : Prop :=
  ∀ origin ∈ state.origins, origin.entity ≠ entity

def Housed (state : RunState) : Prop :=
  ∀ origin ∈ state.origins, origin.entity.index < state.arena.size

/-- Entities keep their classes, and their ids too, but for those that are lost. -/
structure Loses (lost : Handle → Prop) (before after : RunState) : Prop where
  outputs : after.outputs = before.outputs
  housed : before.Housed → after.Housed
  known : ∀ {entity record}, before.record? entity = some record → ∃ later,
    after.record? entity = some later ∧ later.cls = record.cls ∧
      (lost entity → later.id = none) ∧ (¬ lost entity → later.id = record.id)
  shelved : ∀ {entity record}, before.record? entity = some record → before.Shelved entity →
    after.record? entity = some record ∧ after.Shelved entity
  /-- What is new to be waited for must exist. -/
  spawned : ∀ target ∈ after.spawned, target ∈ before.spawned ∨
    ∃ origin ∈ after.origins, origin.entity = target.entity ∧ origin.isWeak = false
  origins : before.origins ⊆ after.origins

abbrev Extends (before after : RunState) : Prop :=
  Loses (fun _ => False) before after

namespace Loses

theorem refl (state : RunState) : state.Extends state where
  outputs := rfl
  housed := id
  known found := ⟨_, found, rfl, False.elim, fun _ => rfl⟩
  shelved found shelved := ⟨found, shelved⟩
  spawned _ member := .inl member
  origins := List.Subset.refl _

theorem congr (same : ∀ entity, lostToo entity ↔ lost entity) (loses : Loses lost before after) :
    Loses lostToo before after :=
  funext (fun entity => propext (same entity)) ▸ loses

theorem trans (first : Loses lost before middle) (second : Loses lostToo middle after) :
    Loses (fun entity => lost entity ∨ lostToo entity) before after where
  outputs := second.outputs.trans first.outputs
  housed := second.housed ∘ first.housed
  known {entity} _ found := by
    obtain ⟨record, foundMiddle, cls, gone, kept⟩ := first.known found
    obtain ⟨later, foundAfter, clsToo, goneToo, keptToo⟩ := second.known foundMiddle
    refine ⟨later, foundAfter, clsToo.trans cls, fun isLost => ?_, fun isKept => ?_⟩
    · by_cases again : lostToo entity
      · exact goneToo again
      · exact (keptToo again).trans (gone (isLost.resolve_right again))
    · obtain ⟨before, after⟩ := not_or.mp isKept
      exact (keptToo after).trans (kept before)
  shelved found shelved := by
    obtain ⟨foundMiddle, shelvedMiddle⟩ := first.shelved found shelved
    exact second.shelved foundMiddle shelvedMiddle
  spawned target member := by
    rcases second.spawned target member with old | new
    · rcases first.spawned target old with older | ⟨origin, spawned, isStrong⟩
      · exact .inl older
      · exact .inr ⟨origin, second.origins spawned, isStrong⟩
    · exact .inr new
  origins := List.Subset.trans first.origins second.origins

/-- What comes before and after matters only in so far as it is looked at. -/
theorem reframe {begun ended : RunState} (loses : Loses lost before after)
    (arena : begun.arena = before.arena) (origins : begun.origins = before.origins)
    (outputs : begun.outputs = before.outputs) (spawned : before.spawned ⊆ begun.spawned)
    (arenaToo : ended.arena = after.arena) (originsToo : ended.origins = after.origins)
    (outputsToo : ended.outputs = after.outputs) (spawnedToo : ended.spawned ⊆ after.spawned) :
    Loses lost begun ended := by
  have record (entity : Handle) : begun.record? entity = before.record? entity := by
    rw [record?, record?, arena]
  have recordToo (entity : Handle) : ended.record? entity = after.record? entity := by
    rw [record?, record?, arenaToo]
  have shelved {entity : Handle} : begun.Shelved entity ↔ before.Shelved entity := by
    rw [Shelved, Shelved, origins]
  have shelvedToo {entity : Handle} : ended.Shelved entity ↔ after.Shelved entity := by
    rw [Shelved, Shelved, originsToo]
  constructor
  · rw [outputs, outputsToo, loses.outputs]
  · rw [Housed, Housed, origins, originsToo, arena, arenaToo]
    exact loses.housed
  · intro entity found known
    rw [recordToo]
    exact loses.known (record entity ▸ known)
  · intro entity found known isShelved
    rw [recordToo, shelvedToo]
    exact loses.shelved (record entity ▸ known) (shelved.mp isShelved)
  · intro target member
    rw [originsToo]
    exact (loses.spawned target (spawnedToo member)).imp_left fun old => spawned old
  · rw [origins, originsToo]
    exact loses.origins

end Loses

theorem Extends.thenLoses (first : before.Extends middle) (second : Loses lost middle after) :
    Loses lost before after :=
  (Loses.trans first second).congr fun _ => by rw [false_or]

theorem Loses.thenExtends (first : Loses lost before middle) (second : middle.Extends after) :
    Loses lost before after :=
  (first.trans second).congr fun _ => by rw [or_false]

theorem Extends.trans (first : before.Extends middle) (second : middle.Extends after) :
    before.Extends after :=
  first.thenLoses second

theorem Extends.quiet (arena : after.arena = before.arena)
    (origins : after.origins = before.origins)
    (outputs : after.outputs = before.outputs) (spawned : after.spawned = before.spawned) :
    before.Extends after :=
  (Loses.refl before).reframe rfl rfl rfl (List.Subset.refl _) arena origins outputs
    (spawned ▸ List.Subset.refl _)

def Spawned (state : RunState) (entity : Handle) : Prop :=
  ∃ origin ∈ state.origins, origin.entity = entity

theorem Shelved.ne {entity other : Handle} (shelved : state.Shelved entity)
    (spawned : state.Spawned other) : entity ≠ other := by
  rintro rfl
  obtain ⟨origin, member, same⟩ := spawned
  exact shelved origin member same

theorem spawned_of_extends {entity : Handle} (spawned : before.Spawned entity)
    (loses : Loses lost before after) : after.Spawned entity := by
  obtain ⟨origin, member, same⟩ := spawned
  exact ⟨origin, loses.origins member, same⟩

section Changes

variable {entity : Handle} {target : Target} {name : String} {value : FieldValue Handle}

theorem loses_modify {change : EntityRecord → EntityRecord} (spawned : state.Spawned entity)
    (events : List Event) (only : ∀ other, lost other → other = entity)
    (changes : ∀ record, (change record).cls = record.cls ∧
      (lost entity → (change record).id = none) ∧
      (¬ lost entity → (change record).id = record.id)) :
    Loses lost state
      { state with arena := state.arena.modify entity.index change, events := events } where
  outputs := rfl
  housed housed origin member := by simpa using housed origin member
  known {other record} found := by
    rw [record_modify]
    split
    · rename_i mine
      subst mine
      exact ⟨change record, by rw [found, Option.map_some], changes record⟩
    · rename_i different
      exact ⟨record, found, rfl, fun isLost => absurd (only other isLost) different, fun _ => rfl⟩
  shelved found shelved := by
    rw [record_modify, if_neg (shelved.ne spawned)]
    exact ⟨found, shelved⟩
  spawned _ member := .inl member
  origins := List.Subset.refl _

theorem extends_stored (spawned : state.Spawned target.entity) (source : Source) :
    state.Extends (state.stored source target name value) :=
  loses_modify spawned _ (fun _ => False.elim) fun _ => ⟨rfl, False.elim, fun _ => rfl⟩

theorem extends_kept (schema : Schema) : state.Extends (state.kept schema target name value) := by
  unfold kept
  split
  · exact .quiet rfl rfl rfl rfl
  · exact .refl state

theorem origins_kept (schema : Schema) :
    (state.kept schema target name value).origins = state.origins := by
  unfold kept
  split <;> rfl

theorem extends_learned (schema : Schema) (spawned : state.Spawned target.entity) :
    state.Extends (state.learned schema target name value) := by
  apply (extends_kept schema).trans
  apply extends_stored
  unfold Spawned
  rw [origins_kept]
  exact spawned

theorem loses_forgotten (spawned : state.Spawned target.entity) :
    Loses (· = target.entity) state (state.forgotten target) :=
  loses_modify spawned _ (fun _ same => same) fun _ =>
    ⟨rfl, fun _ => rfl, fun differs => absurd rfl differs⟩

theorem extends_allocated (record : EntityRecord) : state.Extends (state.allocated record) where
  outputs := rfl
  housed housed origin member := by
    have before := housed origin member
    rw [RunState.allocated, Array.size_push]
    omega
  known {entity old} found := by
    rw [record_allocated, if_neg (ne_fresh_of_record found)]
    exact ⟨old, found, rfl, False.elim, fun _ => rfl⟩
  shelved found shelved := by
    rw [record_allocated, if_neg (ne_fresh_of_record found)]
    exact ⟨found, shelved⟩
  spawned _ member := .inl member
  origins := List.Subset.refl _

theorem extends_begun {origin : Origin} (fresh : origin.entity = ⟨state.arena.size⟩) :
    state.Extends (state.begun origin) where
  outputs := rfl
  housed housed other member := by
    change other.entity.index < (state.arena.push _).size
    rw [Array.size_push]
    rcases List.mem_cons.mp member with rfl | old
    · rw [fresh]
      exact Nat.lt_succ_self _
    · exact Nat.lt_succ_of_lt (housed other old)
  known := (extends_allocated _).known
  shelved {entity record} found shelved := by
    refine ⟨((extends_allocated _).shelved found shelved).1, fun other member => ?_⟩
    rcases List.mem_cons.mp member with rfl | old
    · exact fun same => ne_fresh_of_record found (same.symm.trans fresh)
    · exact shelved other old
  spawned _ member := .inl member
  origins := List.subset_cons_self _ _

/-- What must exist may be waited for. -/
theorem extends_enlisted {origin : Origin} (member : origin ∈ state.origins)
    (mine : origin.entity = target.entity) (isStrong : origin.isWeak = false) :
    state.Extends (state.enlisted target) where
  outputs := rfl
  housed := id
  known found := ⟨_, found, rfl, False.elim, fun _ => rfl⟩
  shelved found shelved := ⟨found, shelved⟩
  spawned other listed := by
    refine (List.mem_append.mp listed).imp_right fun new => ?_
    cases List.mem_singleton.mp (List.mem_of_mem_filter new)
    exact ⟨origin, member, mine, isStrong⟩
  origins := List.Subset.refl _

end Changes

end RunState

namespace Run

open RunState

variable {context : RunContext} {before middle after : RunState} {target continued : Target}

theorem extends_resolveGiven {values : FieldValues} {names : List String}
    (spawned : before.Spawned target.entity)
    (done : Yields context (resolveGiven values names target) before continued after) :
    before.Extends after := by
  have stores {state : RunState} {other : Target} {name : String} {value : FieldValue Handle}
      (continues : target.Continues other) (_ : name ∈ names) (_ : (name, value) ∈ values)
      (extended : before.Extends state) :
      before.Extends (state.learned context.catalog.schema other name value) :=
    extended.trans (extends_learned _ (continues.entity ▸ spawned_of_extends spawned extended))
  exact invariant_resolveGiven stores (.refl before) done

theorem extends_spawn {cls : ClassId} {id : String} {selector : Selector} {values : FieldValues}
    {entity : Handle}
    (done : Yields context (spawn cls id selector values false) before entity after) :
    before.Extends after := by
  obtain ⟨rfl, target, resolved, given, rfl⟩ := yields_spawn_iff.mp done
  let origin := before.next cls id selector false
  have begun : before.Extends (before.begun origin) := extends_begun rfl
  have spawned : origin ∈ (before.begun origin).origins := List.mem_cons_self
  have extended := extends_resolveGiven ⟨origin, spawned, rfl⟩ given
  have continues := (quiet_resolveGiven given).1
  apply (begun.trans extended).trans
  exact extends_enlisted (extended.origins spawned) continues.entity.symm rfl

end Run

/-- The failure is that an entity does not exist. -/
def ResolveError.isAbsence : ResolveError → Bool
  | .entityNotFound _ _ => true
  | _ => false

theorem ResolveError.isAbsence_of_isOfRound {error : ResolveError}
    (other : error.isOfRound = false) :
    error.isAbsence = false := by
  cases error <;> first | rfl | cases other

namespace Run

variable {α β : Type}

/-- The step extends what is known, or fails, but not for an entity that does not exist. -/
def Extending (step : Run α) : Prop :=
  ∀ context before,
    match step context before with
    | .ok _ after => before.Extends after
    | .error error _ => error.isAbsence = false

theorem Extending.yields {step : Run α} {context : RunContext} {before after : RunState}
    {result : α}
    (extending : Extending step) (done : Yields context step before result after) :
    before.Extends after := by
  have outcome := extending context before
  rw [Yields] at done
  rw [done] at outcome
  exact outcome

theorem Extending.not_absence {step : Run α} {context : RunContext} {before after : RunState}
    {error : ResolveError} (extending : Extending step)
    (failed : step context before = .error error after) : error.isAbsence = false := by
  have outcome := extending context before
  rw [failed] at outcome
  exact outcome

theorem extending_of_succeeds {step : Run α}
    (succeeds : ∀ context before, ∃ result after,
      Yields context step before result after ∧ before.Extends after) : Extending step := by
  intro context before
  obtain ⟨result, after, done, extends_⟩ := succeeds context before
  rw [Yields] at done
  rw [done]
  exact extends_

theorem extending_spawn (cls : ClassId) (id : String) (selector : Selector) (values : FieldValues) :
    Extending (spawn cls id selector values false) := by
  refine extending_of_succeeds fun context before => ?_
  obtain ⟨entity, after, done⟩ : Succeeds context (spawn cls id selector values false) before :=
    succeeds_spawn cls id selector values false before
  exact ⟨entity, after, done, extends_spawn done⟩

theorem closedUnderSteps_extending : ClosedUnderSteps .everything Extending where
  pure _ _ before := RunState.Loses.refl before
  bind {_ _ step next} first rest context before := by
    cases outcome : step context before with
    | ok value middle =>
        rw [Yields.bind outcome]
        have extended := first.yields outcome
        have more := rest value context middle
        split at more
        · exact extended.trans more
        · exact more
    | error error middle =>
        rw [bind_of_error outcome]
        exact first.not_absence outcome
  throw plain _ _ :=
    ResolveError.isAbsence_of_isOfRound (ResolveError.isOfRound_of_isPlain plain)
  read next context before := next context trivial context before
  spawn := extending_spawn
  alloc _ _ _ := extending_of_succeeds fun _ _ =>
    ⟨_, _, yields_alloc_iff.mpr ⟨rfl, rfl⟩, RunState.extends_allocated _⟩

theorem closed_extending : ClosedUnderCalling .everything Extending where
  toClosedUnderReading := closedUnderSteps_extending.reading fun _ _ => rfl
  call _ _ := extending_of_succeeds fun _ _ =>
    ⟨_, _, yields_call_iff.mpr ⟨rfl, rfl⟩, RunState.Extends.quiet rfl rfl rfl rfl⟩

end Run

end EntityResolver
