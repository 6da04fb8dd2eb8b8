import EntityResolver.Proofs.Run.Arena
import EntityResolver.Proofs.Run.Nesting

/-!
What the cache keeps and serves, told from what responses have held.

Where nothing is selected below scalar fields, all that responses hold for fields of the schema is
kept, with ids in the place of entities. Entities of a response are new, so that they have ids when
their values are kept: only older ones can be lost while a fetch is settled.
-/

set_option autoImplicit false

namespace EntityResolver

variable {schema : Schema} {state before after : RunState} {target : Target} {name : String}
variable {value : FieldValue Handle}

/-- The id is kept for an entity in a value of the field. -/
def Noted (schema : Schema) (events : List Event) (cls : ClassId) (name id : String)
    (entity : Handle) : Prop :=
  (∃ inner, schema.Refers cls name inner) ∧ Bears events entity id

/-- For every field of the schema, the cache keeps the latest value that a response held. -/
def RunState.Ledger (schema : Schema) (state : RunState) : Prop :=
  ∀ cls id name, (schema.field? cls name).isSome → Option.Rel
    (fun kept value => FieldValue.Rel (Noted schema state.events cls name) kept value)
    (state.cached? cls id name) (latest state.events cls id name)

/-- The value can be kept: what it refers to has an id, and below a scalar field there
is nothing. -/
structure Keepable (schema : Schema) (state : RunState) (target : Target) (name : String)
    (value : FieldValue Handle) : Prop where
  refers : ∀ entity ∈ value.entities, ∃ inner, schema.Refers target.cls name inner
  named : ∀ entity ∈ value.entities, ∃ id, state.idOf? entity = some id
  below : ∀ sub, target.selector.subselector? name = some sub → sub ≠ .empty →
    ∃ inner, schema.Refers target.cls name inner

theorem Field.isEntity_of_refers {field : Field} {cls : ClassId}
    (found : schema.field? cls name = some field) (refers : ∃ inner, schema.Refers cls name inner) :
    field.kind.isEntity = true := by
  obtain ⟨inner, other, foundToo, targets⟩ := refers
  cases found.symm.trans foundToo
  simp [FieldKind.isEntity, targets]

theorem Keepable.exists_cacheable (keepable : Keepable schema state target name value)
    {field : Field} (found : schema.field? target.cls name = some field) :
    ∃ kept, Run.cacheable? schema state target name value = some kept ∧
      FieldValue.Rel (fun id entity => state.idOf? entity = some id) kept value := by
  unfold Run.cacheable?
  simp only [found]
  by_cases isEntity : field.kind.isEntity = true
  · rw [if_pos isEntity]
    obtain ⟨ids, same⟩ := FieldValue.exists_rel keepable.named
    exact ⟨ids, same.traverse, same.symm⟩
  · have scalar (refers : ∃ inner, schema.Refers target.cls name inner) : False :=
      isEntity (Field.isEntity_of_refers found refers)
    have plain : ¬ (target.selector.subselector? name).any (fun sub => !sub.isEmpty) = true := by
      intro nested
      cases selected : target.selector.subselector? name with
      | none => simp [selected] at nested
      | some sub =>
          refine scalar (keepable.below sub selected ?_)
          rintro rfl
          simp [selected, Selector.isEmpty] at nested
    rw [if_neg isEntity, if_neg plain]
    -- A scalar field has no entities, so that nothing is lost by leaving out their ids.
    have none (entity : Handle) (member : entity ∈ value.entities) : ∃ id,
        id = "" ∧ state.idOf? entity = some id :=
      (scalar (keepable.refers entity member)).elim
    obtain ⟨ids, same⟩ := FieldValue.exists_rel none
    have blank : value.mapEntities (fun _ => "") = ids := by
      have unchanged : ids.mapEntities id = ids := FieldValue.mapEntities_eq_self fun _ _ => rfl
      rw [← unchanged]
      exact same.mapEntities_eq fun entity known pair => pair.1.symm
    refine ⟨_, rfl, ?_⟩
    rw [blank]
    exact same.symm.mono fun known _ entity pair => pair.2

theorem RunState.Ledger.learned (ledger : state.Ledger schema)
    (replays : state.arena = arenaAfter state.events)
    (keepable : Keepable schema state target name value) :
    (state.learned schema target name value).Ledger schema := by
  intro cls id other known
  rw [RunState.events_learned, latest_response]
  by_cases mine : target.cls = cls ∧ target.id = id ∧ name = other
  · obtain ⟨rfl, rfl, rfl⟩ := mine
    obtain ⟨field, found⟩ := Option.isSome_iff_exists.mp known
    obtain ⟨kept, outcome, same⟩ := keepable.exists_cacheable found
    have cached : (state.learned schema target name value).cached? target.cls target.id name =
        some kept := by
      simp [RunState.stored, RunState.kept, RunState.cached?, outcome]
    rw [if_pos ⟨rfl, rfl, rfl⟩, cached]
    refine .some (same.symm.mono fun entity member id found => ⟨?_, ?_⟩).symm
    · exact keepable.refers entity member
    · refine ⟨state.events, List.suffix_cons _ _, ?_⟩
      rw [← replays]
      exact found
  · have cached : (state.learned schema target name value).cached? cls id other =
        state.cached? cls id other := by
      have differs : (target.cls == cls && target.id == id && name == other) = false := by
        simpa [and_assoc] using mine
      unfold RunState.learned RunState.stored RunState.kept RunState.cached?
      split
      · simp [differs]
      · rfl
    rw [if_neg mine, cached]
    apply FieldValue.optionRel_imp (ledger cls id other known)
    intro kept held same
    exact same.mono fun id _ entity noted => ⟨noted.1, noted.2.mono (List.suffix_cons _ _)⟩

/-- What is not out of a response changes nothing. -/
theorem RunState.Ledger.silent (ledger : before.Ledger schema) (cache : after.cache = before.cache)
    (later : before.events <:+ after.events) (same : latest after.events = latest before.events) :
    after.Ledger schema := by
  intro cls id name known
  have cached : after.cached? cls id name = before.cached? cls id name := by
    simp only [RunState.cached?, cache]
  rw [cached, same]
  apply FieldValue.optionRel_imp (ledger cls id name known)
  exact fun kept held same => same.mono fun id _ entity noted => ⟨noted.1, noted.2.mono later⟩

/-- The copy is new since the older events. It has the id of the original, is of the class that the
field refers to, and has no fields. -/
structure Copies (schema : Schema) (older past : List Event) (cls : ClassId) (name : String)
    (copy original : Handle) : Prop where
  isNew : (arenaAfter older).size ≤ copy.index
  alike : ∃ inner id, schema.Refers cls name inner ∧ Bears past original id ∧
    (arenaAfter past)[copy.index]? = some ⟨inner, some id, []⟩

/-- The entities that so many records bring into the arena after the older events. -/
def newcomers (older : List Event) (count : Nat) : List Handle :=
  (List.range' (arenaAfter older).size count).map Handle.mk

theorem nodup_newcomers (older : List Event) (count : Nat) : (newcomers older count).Nodup :=
  List.Nodup.map (fun _ _ same => congrArg Handle.index same) List.nodup_range'

/-- The value served is the latest that a response held, with a copy of its own for each of its
entities, and nothing is selected below the field. The copies are what came in last: when the value
was looked up, at the older events, there were none of them. -/
structure ServedRight (schema : Schema) (past : List Event) (target : Target) (name : String)
    (value : FieldValue Handle) : Prop where
  known : (schema.field? target.cls name).isSome
  plain : target.selector.subselector? name = some .empty
  apart : value.entities.Nodup
  latest : ∃ (older : List Event) (entered : List EntityRecord) (held : FieldValue Handle),
    past = entered.map Event.entered ++ older ∧
    value.entities = newcomers older entered.length ∧
    latest past target.cls target.id name = some held ∧
    value.Rel (Copies schema older past target.cls name) held

/-- All that the cache has served was served right. -/
def Coherent (schema : Schema) (events : List Event) : Prop :=
  ∀ past target name value, .resolved .cache target name value :: past <:+ events →
    ServedRight schema past target name value

theorem Coherent.cons {events : List Event} {event : Event} (coherent : Coherent schema events)
    (own : ∀ target name value, event = .resolved .cache target name value →
      ServedRight schema events target name value) : Coherent schema (event :: events) := by
  intro past target name value served
  rcases List.suffix_cons_iff.mp served with same | earlier
  · cases same
    exact own target name value rfl
  · exact coherent past target name value earlier

/-- The target is one of a run where nothing is selected below scalar fields. -/
structure Target.Fits (schema : Schema) (size : Nat) (target : Target) : Prop where
  wellFormed : target.WellFormed
  plain : schema.Plain target.cls target.selector
  inside : target.entity.index < size

theorem Target.Fits.continues {size : Nat} {continued : Target} (fits : target.Fits schema size)
    (continues : target.Continues continued) : continued.Fits schema size where
  wellFormed := fits.wellFormed.continues continues
  plain := continues.cls ▸ continues.selector ▸ fits.plain
  inside := continues.entity ▸ fits.inside

theorem Target.Fits.grow {size bound : Nat} (fits : target.Fits schema size)
    (grown : size ≤ bound) :
    target.Fits schema bound :=
  ⟨fits.wellFormed, fits.plain, fits.inside.trans_le grown⟩

/-- The log accounts for the arena, for all that the cache keeps and for all that it has served. -/
structure Accounted (schema : Schema) (state : RunState) : Prop where
  replays : state.arena = arenaAfter state.events
  ledger : state.Ledger schema
  coherent : Coherent schema state.events
  classed : RunState.Classed state.pools
  fits : ∀ target ∈ state.waiting, target.Fits schema state.arena.size

namespace Accounted

theorem log (accounted : Accounted schema before) {event : Event}
    (quiet : before.Quiet after) (arena : after.arena = event.apply before.arena)
    (events : after.events = event :: before.events) (ledger : after.Ledger schema)
    (own : ∀ target name value, event = .resolved .cache target name value →
      ServedRight schema before.events target name value) : Accounted schema after where
  replays := by
    rw [arena, events, accounted.replays]
    rfl
  ledger := ledger
  coherent := events ▸ accounted.coherent.cons own
  classed := by
    obtain ⟨_, _, _, _, rfl⟩ := quiet
    exact accounted.classed
  fits target member := by
    rw [Run.waiting_of_quiet quiet] at member
    exact (accounted.fits target member).grow (arena ▸ event.size_le_apply _)

theorem regroup (accounted : Accounted schema before) (arena : after.arena = before.arena)
    (events : after.events = before.events) (cache : after.cache = before.cache)
    (classed : RunState.Classed after.pools)
    (fits : ∀ target ∈ after.waiting, target.Fits schema before.arena.size) :
    Accounted schema after where
  replays := by
    rw [arena, events]
    exact accounted.replays
  ledger := accounted.ledger.silent cache (events ▸ List.suffix_refl _) (by rw [events])
  coherent := events ▸ accounted.coherent
  classed := classed
  fits := arena ▸ fits

theorem enters (accounted : Accounted schema state) (record : EntityRecord) :
    Accounted schema (state.allocated record) := by
  have quiet : state.Quiet (state.allocated record) := ⟨_, _, _, _, rfl⟩
  refine accounted.log quiet rfl rfl ?_ fun _ _ _ same => ?_
  · exact accounted.ledger.silent rfl (List.suffix_cons _ _) rfl
  · cases same

theorem loses (accounted : Accounted schema state) (target : Target) :
    Accounted schema (state.forgotten target) := by
  have quiet : state.Quiet (state.forgotten target) := ⟨_, _, _, _, rfl⟩
  refine accounted.log quiet rfl rfl ?_ fun _ _ _ same => ?_
  · exact accounted.ledger.silent rfl (List.suffix_cons _ _) rfl
  · cases same

theorem learns (accounted : Accounted schema state)
    (keepable : Keepable schema state target name value) :
    Accounted schema (state.learned schema target name value) := by
  refine accounted.log (RunState.quiet_learned ..) (RunState.arena_learned ..)
    (RunState.events_learned ..) ?_ fun _ _ _ same => ?_
  · exact accounted.ledger.learned accounted.replays keepable
  · cases same

theorem serves (accounted : Accounted schema state)
    (right : ServedRight schema state.events target name value) :
    Accounted schema (state.stored .cache target name value) := by
  refine accounted.log (RunState.quiet_stored ..) rfl rfl ?_ fun _ _ _ same => ?_
  · exact accounted.ledger.silent rfl (List.suffix_cons _ _) rfl
  · cases same
    exact right

end Accounted

end EntityResolver
