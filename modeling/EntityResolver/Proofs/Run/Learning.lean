import EntityResolver.Proofs.Run.Knowledge

/-!
What steps of a run add to what it knows: spawning, resolving a field, giving up.
-/

set_option autoImplicit false

namespace EntityResolver

namespace RunState

variable {state : RunState} {entity other : Handle}

theorem record_modify (change : EntityRecord → EntityRecord) (events : List Event) :
    RunState.record?
        { state with arena := state.arena.modify entity.index change, events := events } other =
      if other = entity then (state.record? entity).map change else state.record? other := by
  obtain ⟨index⟩ := entity
  obtain ⟨position⟩ := other
  simp only [record?, Array.getElem?_modify, Handle.mk.injEq, eq_comm (a := index)]
  split
  · rename_i same
    rw [same]
  · rfl

theorem record_stored (source : Source) (target : Target) (name : String)
    (value : FieldValue Handle) :
    (state.stored source target name value).record? other =
      if other = target.entity then (state.record? target.entity).map fun record =>
        { record with values := record.values.set name value }
      else state.record? other :=
  record_modify _ _

theorem record_forgotten (target : Target) :
    (state.forgotten target).record? other =
      if other = target.entity then
        (state.record? target.entity).map fun record => { record with id := none }
      else state.record? other :=
  record_modify _ _

theorem record_allocated (record : EntityRecord) :
    (state.allocated record).record? other =
      if other = ⟨state.arena.size⟩ then some record else state.record? other := by
  obtain ⟨position⟩ := other
  simp only [record?, allocated, Array.getElem?_push, Handle.mk.injEq]

theorem index_lt_of_record {record : EntityRecord} (found : state.record? entity = some record) :
    entity.index < state.arena.size :=
  (Array.getElem?_eq_some_iff.mp found).1

theorem ne_fresh_of_record {record : EntityRecord} (found : state.record? entity = some record) :
    entity ≠ ⟨state.arena.size⟩ := by
  rintro rfl
  exact absurd (index_lt_of_record found) (Nat.lt_irrefl _)

end RunState

variable {schema : Schema} {truth : Truth schema} {state before after : RunState}
variable {origin : Origin} {target : Target} {live rest : List Target}

def Target.key (target : Target) : EntityKey :=
  (target.cls, target.id)

theorem Pending.key (pending : Pending truth state origin target) : target.key = origin.key :=
  Prod.ext pending.continues.cls pending.continues.id

namespace Sound

theorem exists_record (sound : Sound truth live state) (member : origin ∈ state.origins) :
    ∃ record, state.record? origin.entity = some record := by
  rcases sound.fates origin member with ⟨_, _, pending⟩ | settled
  · obtain ⟨values, holds⟩ := pending.holds
    exact ⟨_, holds.record⟩
  · cases settled with
    | met holds => exact ⟨_, holds.record⟩
    | gone _ record _ => exact ⟨_, record⟩

theorem id_of_stands (sound : Sound truth live state) {sub : Selector} {entity : Handle}
    {key : EntityKey} (stands : state.Stands sub entity key) :
    state.idOf? entity = some key.2 := by
  unfold RunState.idOf?
  rcases stands with ⟨origin, member, rfl, isStrong, rfl, _⟩ | ⟨_, bare⟩
  · rcases sound.fates origin member with ⟨_, _, pending⟩ | settled
    · obtain ⟨values, holds⟩ := pending.holds
      rw [holds.record]
      rfl
    · cases settled with
      | met holds =>
          rw [holds.record]
          rfl
      | gone isWeak _ _ => exact absurd isWeak (by simp [isStrong])
  · rw [bare.record]
    rfl

theorem recache (sound : Sound truth live before) (arena : after.arena = before.arena)
    (origins : after.origins = before.origins)
    (cache : ∀ entry ∈ after.cache, truth.Remembers entry) :
    Sound truth live after ∧ before.Keeps after := by
  have record (entity : Handle) : after.record? entity = before.record? entity := by
    simp only [RunState.record?, arena]
  have keeps : before.Keeps after :=
    ⟨fun origin member => origins ▸ member, fun entity key bare =>
      ⟨(record entity).trans bare.record, origins ▸ bare.shelved⟩⟩
  refine ⟨⟨origins ▸ sound.apart, origins ▸ sound.distinct, ?_, ?_, sound.once, cache⟩, keeps⟩
  · intro origin member
    rcases sound.fates origin (origins ▸ member) with ⟨target, inLive, pending⟩ | settled
    · exact .inl ⟨target, inLive, pending.mono keeps (record _)⟩
    · exact .inr (settled.mono keeps (record _))
  · intro target member
    obtain ⟨origin, spawned, pending⟩ := sound.waits target member
    exact ⟨origin, origins ▸ spawned, pending.mono keeps (record _)⟩

theorem frame (sound : Sound truth live state) (pools : List (ClassId × List Target))
    (spawned : List Target) (prerequisites : List Prerequisite) (outputs : Array (List Handle))
    (stats : RunStats) (calls : List Call) :
    let after := { state with
      pools := pools
      spawned := spawned
      prerequisites := prerequisites
      outputs := outputs
      stats := stats
      calls := calls }
    Sound truth live after ∧ state.Keeps after :=
  sound.recache rfl rfl sound.cache

theorem record_before (sound : Sound truth live state) (member : origin ∈ state.origins)
    (record : EntityRecord) :
    (state.allocated record).record? origin.entity = state.record? origin.entity := by
  obtain ⟨known, found⟩ := sound.exists_record member
  rw [RunState.record_allocated, if_neg (RunState.ne_fresh_of_record found)]

theorem alloc (sound : Sound truth live state) (record : EntityRecord) :
    Sound truth live (state.allocated record) ∧ state.Keeps (state.allocated record) := by
  have keeps : state.Keeps (state.allocated record) := by
    refine ⟨fun origin member => member, fun entity key bare => ⟨?_, bare.shelved⟩⟩
    rw [RunState.record_allocated, if_neg (RunState.ne_fresh_of_record bare.record)]
    exact bare.record
  refine ⟨⟨sound.apart, sound.distinct, ?_, ?_, sound.once, sound.cache⟩, keeps⟩
  · intro origin member
    have same := sound.record_before member record
    rcases sound.fates origin member with ⟨target, inLive, pending⟩ | settled
    · exact .inl ⟨target, inLive, pending.mono keeps same⟩
    · exact .inr (settled.mono keeps same)
  · intro target member
    obtain ⟨origin, spawned, pending⟩ := sound.waits target member
    exact ⟨origin, spawned, pending.mono keeps (sound.record_before spawned record)⟩

theorem bare_fresh (sound : Sound truth live state) (key : EntityKey) :
    (state.allocated ⟨key.1, some key.2, []⟩).Bare ⟨state.arena.size⟩ key := by
  refine ⟨by rw [RunState.record_allocated, if_pos rfl], fun origin member => ?_⟩
  obtain ⟨record, found⟩ := sound.exists_record member
  exact RunState.ne_fresh_of_record found

theorem spawned (sound : Sound truth live state) (distinct : origin.selector.Distinct)
    (fresh : origin.entity = ⟨state.arena.size⟩) :
    Sound truth (origin.wish :: live) (state.begun origin) ∧ state.Keeps (state.begun origin) := by
  have keeps : state.Keeps (state.begun origin) := by
    refine ⟨fun other member => List.mem_cons_of_mem _ member, fun entity key bare => ⟨?_, ?_⟩⟩
    · exact ((sound.alloc _).2.bare entity key bare).record
    · intro other member
      rcases List.mem_cons.mp member with rfl | old
      · rw [fresh]
        exact (RunState.ne_fresh_of_record bare.record).symm
      · exact bare.shelved other old
  have pending : Pending truth (state.begun origin) origin origin.wish := by
    refine ⟨.refl _, fun isWeak => ⟨isWeak, rfl⟩, ?_, [], ?_, .refl _, by simp [Carries]⟩
    · intro isStrong isWeak
      cases isWeak.symm.trans isStrong
    · exact (RunState.record_allocated _).trans (if_pos fresh)
  have older {other : Origin} (member : other ∈ state.origins) :
      (state.begun origin).record? other.entity = state.record? other.entity :=
    sound.record_before member _
  refine ⟨⟨?_, ?_, ?_, ?_, ?_, sound.cache⟩, keeps⟩
  · refine List.nodup_cons.mpr ⟨fun same => ?_, sound.apart⟩
    obtain ⟨other, member, equal⟩ := List.mem_map.mp same
    obtain ⟨record, found⟩ := sound.exists_record member
    exact RunState.ne_fresh_of_record found (equal.trans fresh)
  · exact List.forall_mem_cons.mpr ⟨distinct, sound.distinct⟩
  · intro other member
    rcases List.mem_cons.mp member with rfl | old
    · exact .inl ⟨_, List.mem_cons_self, pending⟩
    · rcases sound.fates other old with ⟨target, inLive, waiting⟩ | settled
      · exact .inl ⟨target, List.mem_cons_of_mem _ inLive, waiting.mono keeps (older old)⟩
      · exact .inr (settled.mono keeps (older old))
  · intro target member
    rcases List.mem_cons.mp member with rfl | inLive
    · exact ⟨origin, List.mem_cons_self, pending⟩
    · obtain ⟨other, old, waiting⟩ := sound.waits target inLive
      exact ⟨other, List.mem_cons_of_mem _ old, waiting.mono keeps (older old)⟩
  · refine List.nodup_cons.mpr ⟨fun same => ?_, sound.once⟩
    obtain ⟨target, inLive, equal⟩ := List.mem_map.mp same
    obtain ⟨other, old, waiting⟩ := sound.waits target inLive
    obtain ⟨record, found⟩ := sound.exists_record old
    exact RunState.ne_fresh_of_record found (waiting.entity.symm.trans (equal.trans fresh))

theorem mapEntities_cacheable (sound : Sound truth live state) {name : String} {field : Field}
    {sub : Selector} {value : FieldValue Handle} {kept : FieldValue String}
    {keys : FieldValue EntityKey} (same : value.Rel (state.Stands sub) keys)
    (found : schema.field? target.cls name = some field)
    (outcome : Run.cacheable? schema state target name value = some kept) (cls : ClassId) :
    kept.mapEntities (fun id => (cls, id)) =
      keys.mapEntities fun key => (cls, if field.kind.isEntity then key.2 else "") := by
  unfold Run.cacheable? at outcome
  simp only [found] at outcome
  split at outcome
  · rename_i isEntity
    simp only [isEntity, if_true]
    have ids : value.mapEntities (fun entity => (cls, (state.idOf? entity).getD "")) =
        kept.mapEntities fun id => (cls, id) :=
      (FieldValue.Rel.of_traverse outcome).mapEntities_eq fun entity id known => by rw [known]; rfl
    rw [← ids]
    refine same.mapEntities_eq fun entity key stands => ?_
    rw [sound.id_of_stands stands]
    rfl
  · rename_i isScalar
    simp only [isScalar]
    split at outcome
    · cases outcome
    · cases outcome
      rw [FieldValue.mapEntities_mapEntities]
      exact same.mapEntities_eq fun _ _ _ => rfl

theorem keep (sound : Sound truth live state) {name : String} {sub : Selector}
    {value : FieldValue Handle} (means : Means truth state target.key name sub value) :
    Sound truth live (state.kept schema target name value) ∧
      state.Keeps (state.kept schema target name value) := by
  unfold RunState.kept
  cases outcome : Run.cacheable? schema state target name value with
  | none => exact ⟨sound, .refl _⟩
  | some kept =>
      refine sound.recache rfl rfl fun entry member => ?_
      rcases List.mem_cons.mp member with rfl | old
      · intro field found
        obtain ⟨keys, holds, same⟩ := means
        have equal := sound.mapEntities_cacheable same found outcome
        exact (equal _).symm ▸ truth.kept found holds
      · exact sound.cache entry old

theorem store (sound : Sound truth (target :: rest) state) (source : Source) {name : String}
    {sub : Selector}
    {value : FieldValue Handle} (wanted : name ∈ target.unresolved)
    (selected : (name, sub) ∈ target.selector.resolved)
    (means : Means truth state target.key name sub value) :
    Sound truth (target.without name :: rest) (state.stored source target name value) ∧
      state.Keeps (state.stored source target name value) := by
  refine sound.change (some (target.without name)) rfl ?_ (by simp [Target.without]) ?_
    sound.cache
  · intro entity different
    rw [RunState.record_stored, if_neg different]
  · intro origin member keeps pending
    refine ⟨fun other same => ?_, nofun⟩
    cases same
    obtain ⟨values, holds⟩ := pending.holds
    have nodup := holds.names.nodup_iff.mpr (sound.distinct origin member).nodup
    have fresh : name ∉ OrderedMap.keys values := fun known =>
      (List.nodup_append.mp nodup).2.2 name known name wanted rfl
    have mine : target.selector = origin.selector := pending.continues.selector
    have known : ∃ name keys, truth.holds origin.cls origin.id name keys := by
      obtain ⟨keys, holds, _⟩ := means
      rw [pending.key] at holds
      exact ⟨name, keys, holds⟩
    refine ⟨pending.continues.trans (target.continues_without name), by simp [Target.without],
      fun _ _ => known, values.set name value, ?_, ?_, ?_⟩
    · rw [RunState.record_stored, if_pos pending.entity.symm, pending.entity, holds.record]
      rfl
    · rw [OrderedMap.set_of_not_mem fresh]
      simp only [OrderedMap.keys, List.map_append, List.map_cons, List.map_nil, List.append_assoc,
        List.singleton_append]
      refine List.Perm.trans ?_ holds.names
      exact (List.perm_cons_erase wanted).symm.append_left _
    · intro other stored inValues
      rcases OrderedMap.mem_set inValues with same | old
      · cases same
        exact ⟨sub, mine ▸ selected, pending.key ▸ means.mono keeps⟩
      · exact holds.carries.mono keeps other stored old

theorem giveUp (sound : Sound truth (target :: rest) state) (isWeak : target.isWeak = true)
    (lacks : truth.lacks target.cls target.id target.selector) :
    Sound truth rest (state.forgotten target) ∧ state.Keeps (state.forgotten target) := by
  refine sound.change none rfl ?_ nofun ?_ sound.cache
  · intro entity different
    rw [RunState.record_forgotten, if_neg different]
  · intro origin member keeps pending
    refine ⟨nofun, fun _ => ?_⟩
    obtain ⟨weakOrigin, untouched⟩ := pending.weak isWeak
    obtain ⟨values, holds⟩ := pending.holds
    have none : values = [] := by
      have lengths := holds.names.length_eq
      rw [untouched, List.length_append] at lengths
      simpa [OrderedMap.keys] using lengths
    have cls : target.cls = origin.cls := pending.continues.cls
    have id : target.id = origin.id := pending.continues.id
    have selector : target.selector = origin.selector := pending.continues.selector
    refine .gone weakOrigin ?_ (cls ▸ id ▸ selector ▸ lacks)
    rw [RunState.record_forgotten, if_pos pending.entity.symm, pending.entity, holds.record, none]
    rfl

end Sound

end EntityResolver
