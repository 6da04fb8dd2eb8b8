import EntityResolver.Proofs.Twin.Pairing

/-!
Single steps of two runs side by side.

Whatever a step does to the states, it does to both, and they stay at the same point. The laws of
`Joins` carry this over to steps one after the other.
-/

set_option autoImplicit false

namespace EntityResolver

theorem FieldValue.shape_mapEntities {ε τ : Type} (value : FieldValue ε) (change : ε → τ) :
    (value.mapEntities change).shape = value.shape :=
  value.mapEntities_mapEntities change fun _ => ()

theorem FieldValue.Rel.shape_eq {ε τ : Type} {related : ε → τ → Prop} {value : FieldValue ε}
    {other : FieldValue τ} (same : Rel related value other) : other.shape = value.shape :=
  (same.mapEntities_eq fun _ _ _ => rfl).symm

theorem FieldValue.shape_list {ε : Type} (entities : List ε) :
    (FieldValue.list entities).shape = .list (entities.map fun _ => ()) :=
  rfl

theorem hosts_push (arena : Array EntityRecord) (record : EntityRecord) :
    Hosts (arena.push record) record.cls ⟨arena.size⟩ :=
  ⟨record, by simp, rfl⟩

/-- Entities stay in the arena, and keep their classes. -/
theorem Hosts.apply {arena : Array EntityRecord} {cls : ClassId} {entity : Handle}
    (known : Hosts arena cls entity) (event : Event) : Hosts (event.apply arena) cls entity := by
  obtain ⟨record, found, rfl⟩ := known
  have changed {change : EntityRecord → EntityRecord} (index : Nat)
      (keeps : (change record).cls = record.cls) :
      Hosts (arena.modify index change) record.cls entity := by
    unfold Hosts
    rw [Array.getElem?_modify, found]
    split
    · exact ⟨_, rfl, keeps⟩
    · exact ⟨_, rfl, rfl⟩
  cases event with
  | entered other =>
      have inside := (Array.getElem?_eq_some_iff.mp found).1
      refine ⟨record, ?_, rfl⟩
      rw [Event.apply, Array.getElem?_push, if_neg (by omega), found]
  | resolved source target name value => exact changed _ rfl
  | lost target => exact changed _ rfl

namespace Run.Pairing

variable {context : RunContext} {other : Lang} {pairing : Pairing context other}
variable {before middle after : RunState × RunState} {state twin : RunState}
variable {arena later : Array EntityRecord} {cls : ClassId} {name : String} {target : Target}

section Alike

variable {ε τ : Type} {value valueToo : FieldValue ε}

theorem Alike.mapEntities (alike : pairing.Alike cls name value valueToo) (change : ε → τ) :
    pairing.Alike cls name (value.mapEntities change) (valueToo.mapEntities change) := by
  cases alike with
  | same holds => exact .same (by rwa [FieldValue.shape_mapEntities])
  | apart apart => exact .apart apart

theorem Alike.traverse (alike : pairing.Alike cls name value valueToo) (visit : ε → Option τ) :
    Option.Rel (pairing.Alike cls name) (value.traverseEntities visit)
      (valueToo.traverseEntities visit) := by
  cases alike with
  | apart apart => exact .some (.apart apart)
  | same holds =>
      cases visited : value.traverseEntities visit with
      | none => exact .none
      | some result =>
          exact .some (.same (by rwa [(FieldValue.Rel.of_traverse visited).shape_eq]))

end Alike

variable {value valueToo : FieldValue Handle}

theorem Linked.mono (linked : pairing.Linked arena cls name value)
    (keeps : ∀ cls entity, Hosts arena cls entity → Hosts later cls entity) :
    pairing.Linked later cls name value := by
  intro entity member
  obtain ⟨inner, links, known⟩ := linked entity member
  exact ⟨inner, links, keeps inner entity known⟩

theorem Suits.mono (suits : pairing.Suits arena cls name value valueToo)
    (keeps : ∀ cls entity, Hosts arena cls entity → Hosts later cls entity) :
    pairing.Suits later cls name value valueToo :=
  ⟨suits.alike, suits.linked.mono keeps⟩

theorem suits_of_holds (holds : pairing.holds cls name value.shape)
    (linked : pairing.Linked arena cls name value) : pairing.Suits arena cls name value value :=
  ⟨.same holds, linked⟩

abbrev Brings (pairing : Pairing context other) (arena : Array EntityRecord) (cls : ClassId) :
    FieldValues → FieldValues → Prop :=
  OrderedMap.Matched (pairing.Suits arena cls)

theorem Brings.mono {values valuesToo : FieldValues}
    (brings : pairing.Brings arena cls values valuesToo)
    (keeps : ∀ cls entity, Hosts arena cls entity → Hosts later cls entity) :
    pairing.Brings later cls values valuesToo :=
  OrderedMap.Matched.mono brings fun _ _ _ suits => suits.mono keeps

theorem SameRecord.mono {record recordToo : EntityRecord}
    (same : pairing.SameRecord arena record recordToo)
    (keeps : ∀ cls entity, Hosts arena cls entity → Hosts later cls entity) :
    pairing.SameRecord later record recordToo :=
  ⟨same.cls, same.id, Brings.mono same.values keeps⟩

theorem Fine.mono (fine : pairing.Fine arena target)
    (keeps : ∀ cls entity, Hosts arena cls entity → Hosts later cls entity) :
    pairing.Fine later target :=
  ⟨fine.wellFormed, fine.admitted, keeps _ _ fine.known⟩

theorem Fine.continues {continued : Target} (fine : pairing.Fine arena target)
    (continues : target.Continues continued) : pairing.Fine arena continued where
  wellFormed := fine.wellFormed.continues continues
  admitted := continues.cls ▸ continues.selector ▸ fine.admitted
  known := continues.cls ▸ continues.entity ▸ fine.known

theorem Reaches.refl (valid : pairing.Paired before) : pairing.Reaches before before :=
  ⟨valid, fun _ _ known => known⟩

theorem Reaches.trans (first : pairing.Reaches before middle)
    (second : pairing.Reaches middle after) : pairing.Reaches before after :=
  ⟨second.valid, fun cls entity known => second.later cls entity (first.later cls entity known)⟩

namespace Paired

theorem exists_eq (paired : pairing.Paired (state, twin)) : ∃ arena cache events,
    twin = { state with arena := arena, cache := cache, events := events } :=
  paired.alike

theorem pools_eq (paired : pairing.Paired before) : before.2.pools = before.1.pools := by
  obtain ⟨arena, cache, events, same⟩ := paired.alike
  rw [same]

theorem stats_eq (paired : pairing.Paired before) : before.2.stats = before.1.stats := by
  obtain ⟨arena, cache, events, same⟩ := paired.alike
  rw [same]

theorem size_eq (paired : pairing.Paired (state, twin)) : twin.arena.size = state.arena.size := by
  have outside (index : Nat) : state.arena.size ≤ index ↔ twin.arena.size ≤ index := by
    rw [← Array.getElem?_eq_none_iff, ← Array.getElem?_eq_none_iff]
    rcases optionRel_cases (paired.arena index) with ⟨here, there⟩ | ⟨_, _, here, there, _⟩
    all_goals simp only at here there
    all_goals simp [here, there]
  have own := outside state.arena.size
  have theirs := outside twin.arena.size
  omega

theorem idOf?_eq (paired : pairing.Paired (state, twin)) : twin.idOf? = state.idOf? := by
  funext entity
  unfold RunState.idOf? RunState.record?
  rcases optionRel_cases (paired.arena entity.index) with
    ⟨here, there⟩ | ⟨record, recordToo, here, there, same⟩
  · rw [here, there]
  · rw [here, there]
    exact same.id

theorem sound (records : ∀ index : Nat,
      Option.Rel (pairing.SameRecord arena) arena[index]? later[index]?) :
    pairing.Sound arena := by
  intro index record found name value member
  rcases optionRel_cases (records index) with ⟨here, _⟩ | ⟨_, recordToo, here, _, same⟩
  · cases found.symm.trans here
  · cases found.symm.trans here
    obtain ⟨position, inside, here⟩ := List.mem_iff_getElem.mp member
    have aligned := List.forall₂_iff_get.mp same.values
    have pair := aligned.2 position inside (aligned.1 ▸ inside)
    simp only [List.get_eq_getElem, here] at pair
    exact ⟨_, pair.2⟩

/-- What happens to the arenas leaves the runs at the same point if the records stay the same. -/
theorem logged (paired : pairing.Paired (state, twin)) (event eventToo : Event)
    (records : ∀ index : Nat, Option.Rel (pairing.SameRecord (event.apply state.arena))
      (event.apply state.arena)[index]? (eventToo.apply twin.arena)[index]?) :
    pairing.Reaches (state, twin)
      ({ state with arena := event.apply state.arena, events := event :: state.events },
        { twin with arena := eventToo.apply twin.arena, events := eventToo :: twin.events }) := by
  have keeps (cls : ClassId) (entity : Handle) (known : Hosts state.arena cls entity) :
      Hosts (event.apply state.arena) cls entity := known.apply event
  refine ⟨⟨?_, records, paired.cache, fun target member => ?_, paired.classed, paired.awaits, ?_⟩,
    keeps⟩
  · obtain ⟨arena, cache, events, same⟩ := paired.exists_eq
    exact ⟨_, cache, _, by rw [same]⟩
  · exact (paired.fine target member).mono keeps
  · exact paired.recorded.log rfl rfl (sound records)

theorem allocated (paired : pairing.Paired (state, twin)) {record recordToo : EntityRecord}
    (same : pairing.SameRecord state.arena record recordToo) :
    pairing.Reaches (state, twin) (state.allocated record, twin.allocated recordToo) := by
  refine paired.logged (.entered record) (.entered recordToo) fun index => ?_
  have keeps (cls : ClassId) (entity : Handle) (known : Hosts state.arena cls entity) :=
    known.apply (.entered record)
  simp only [Event.apply] at keeps ⊢
  rw [Array.getElem?_push, Array.getElem?_push, paired.size_eq]
  split
  · exact .some (same.mono keeps)
  · exact FieldValue.optionRel_imp (paired.arena index) fun _ _ same => same.mono keeps

theorem stored (paired : pairing.Paired (state, twin)) (source : Source)
    (known : Hosts state.arena target.cls target.entity)
    (suits : pairing.Suits state.arena target.cls name value valueToo) :
    pairing.Reaches (state, twin)
      (state.stored source target name value, twin.stored source target name valueToo) := by
  refine paired.logged (.resolved source target name value) (.resolved source target name valueToo)
    fun index => ?_
  have keeps (cls : ClassId) (entity : Handle) (known : Hosts state.arena cls entity) :=
    known.apply (.resolved source target name value)
  simp only [Event.apply] at keeps ⊢
  rw [Array.getElem?_modify, Array.getElem?_modify]
  split
  · rename_i here
    subst here
    rcases optionRel_cases (paired.arena target.entity.index) with
      ⟨found, foundToo⟩ | ⟨record, recordToo, found, foundToo, same⟩
    · simp only at found foundToo
      rw [found, foundToo]
      exact .none
    · simp only at found foundToo
      rw [found, foundToo]
      obtain ⟨knownRecord, knownFound, ofClass⟩ := known
      cases found.symm.trans knownFound
      refine .some ⟨same.cls, same.id, ?_⟩
      exact OrderedMap.Matched.set (Brings.mono same.values keeps) (ofClass ▸ suits.mono keeps)
  · exact FieldValue.optionRel_imp (paired.arena index) fun _ _ same => same.mono keeps

theorem forgotten (paired : pairing.Paired (state, twin)) (target : Target) :
    pairing.Reaches (state, twin) (state.forgotten target, twin.forgotten target) := by
  refine paired.logged (.lost target) (.lost target) fun index => ?_
  have keeps (cls : ClassId) (entity : Handle) (known : Hosts state.arena cls entity) :=
    known.apply (.lost target)
  simp only [Event.apply] at keeps ⊢
  rw [Array.getElem?_modify, Array.getElem?_modify]
  split
  · rcases optionRel_cases (paired.arena index) with
      ⟨found, foundToo⟩ | ⟨record, recordToo, found, foundToo, same⟩
    · simp only at found foundToo
      rw [found, foundToo]
      exact .none
    · simp only at found foundToo
      rw [found, foundToo]
      exact .some ⟨same.cls, rfl, Brings.mono same.values keeps⟩
  · exact FieldValue.optionRel_imp (paired.arena index) fun _ _ same => same.mono keeps

theorem cacheable (paired : pairing.Paired (state, twin)) (schema : Schema)
    (alike : pairing.Alike target.cls name value valueToo) :
    Option.Rel (pairing.Alike target.cls name) (cacheable? schema state target name value)
      (cacheable? schema twin target name valueToo) := by
  unfold cacheable? idsOf
  rw [paired.idOf?_eq]
  split
  · exact .none
  · split
    · exact alike.traverse _
    · split
      · exact .none
      · exact .some (alike.mapEntities _)

theorem kept (paired : pairing.Paired (state, twin)) (schema : Schema)
    (alike : pairing.Alike target.cls name value valueToo) :
    pairing.Reaches (state, twin)
      (state.kept schema target name value, twin.kept schema target name valueToo) := by
  unfold RunState.kept
  rcases optionRel_cases (paired.cacheable schema alike) with
    ⟨here, there⟩ | ⟨one, two, here, there, alike⟩
  · rw [here, there]
    exact .refl paired
  · rw [here, there]
    refine ⟨⟨?_, paired.arena, ?_, paired.fine, paired.classed, paired.awaits, ?_⟩,
      fun _ _ known => known⟩
    · obtain ⟨arena, cache, events, same⟩ := paired.exists_eq
      exact ⟨arena, _, events, by rw [same]⟩
    · exact .cons ⟨rfl, rfl, rfl, alike⟩ paired.cache
    · exact paired.recorded.congr rfl rfl

theorem learned (paired : pairing.Paired (state, twin)) (schema : Schema)
    (known : Hosts state.arena target.cls target.entity)
    (suits : pairing.Suits state.arena target.cls name value valueToo) :
    pairing.Reaches (state, twin)
      (state.learned schema target name value, twin.learned schema target name valueToo) := by
  have first := paired.kept schema suits.alike
  exact first.trans (first.valid.stored .response (first.later _ _ known) (suits.mono first.later))

/-- Nothing depends on what the run has cost, nor on what it gives out. -/
theorem framed (paired : pairing.Paired (state, twin)) (calls : List Call) (stats : RunStats)
    (outputs : Array (List Handle)) (origins : List Origin) :
    pairing.Reaches (state, twin)
      ({ state with calls := calls, stats := stats, outputs := outputs, origins := origins },
        { twin with calls := calls, stats := stats, outputs := outputs, origins := origins }) := by
  refine ⟨⟨?_, paired.arena, paired.cache, paired.fine, paired.classed, paired.awaits,
    paired.recorded.congr rfl rfl⟩, fun _ _ known => known⟩
  obtain ⟨arena, cache, events, same⟩ := paired.exists_eq
  exact ⟨arena, cache, events, by rw [same]⟩

/-- Other targets may wait if they are fine and stand in the pools of their classes. -/
theorem waiting (paired : pairing.Paired (state, twin)) (pools : List (ClassId × List Target))
    (spawned : List Target)
    (fine : ∀ target ∈ ({ state with pools := pools, spawned := spawned } : RunState).waiting,
      pairing.Fine state.arena target)
    (classed : RunState.Classed pools) :
    pairing.Reaches (state, twin)
      ({ state with pools := pools, spawned := spawned },
        { twin with pools := pools, spawned := spawned }) := by
  refine ⟨⟨?_, paired.arena, paired.cache, fine, classed, paired.awaits,
    paired.recorded.congr rfl rfl⟩, fun _ _ known => known⟩
  obtain ⟨arena, cache, events, same⟩ := paired.exists_eq
  exact ⟨arena, cache, events, by rw [same]⟩

theorem enlisted (paired : pairing.Paired (state, twin)) (fine : pairing.Fine state.arena target) :
    pairing.Reaches (state, twin) ({ state with spawned := state.spawned ++ [target] },
      { twin with spawned := twin.spawned ++ [target] }) := by
  obtain ⟨arena, cache, events, rfl⟩ := paired.exists_eq
  refine paired.waiting state.pools (state.spawned ++ [target]) (fun other member => ?_)
    paired.classed
  rcases List.mem_append.mp member with pooled | spawned
  · exact paired.fine other (List.mem_append_left _ pooled)
  · rcases List.mem_append.mp spawned with old | new
    · exact paired.fine other (List.mem_append_right _ old)
    · exact List.mem_singleton.mp new ▸ fine

theorem cleared (paired : pairing.Paired (state, twin)) :
    pairing.Reaches (state, twin) ({ state with cache := [] }, { twin with cache := [] }) := by
  refine ⟨⟨?_, paired.arena, .nil, paired.fine, paired.classed, paired.awaits,
    paired.recorded.congr rfl rfl⟩, fun _ _ known => known⟩
  obtain ⟨arena, cache, events, same⟩ := paired.exists_eq
  exact ⟨arena, [], events, by rw [same]⟩

theorem awaiting (paired : pairing.Paired (state, twin)) (prerequisites : List Prerequisite)
    (awaits : ∀ prerequisite ∈ prerequisites, pairing.AdmitsBegun prerequisite) :
    pairing.Reaches (state, twin)
      ({ state with prerequisites := prerequisites },
        { twin with prerequisites := prerequisites }) := by
  refine ⟨⟨?_, paired.arena, paired.cache, paired.fine, paired.classed, awaits,
    paired.recorded.congr rfl rfl⟩, fun _ _ known => known⟩
  obtain ⟨arena, cache, events, same⟩ := paired.exists_eq
  exact ⟨arena, cache, events, by rw [same]⟩

end Paired

variable {α β : Type}

theorem Joins.mono {step stepToo : Run α} {good better : α → α → RunState × RunState → Prop}
    (joins : pairing.Joins before step stepToo good)
    (more : ∀ one two after, good one two after → better one two after) :
    pairing.Joins before step stepToo better := by
  unfold Joins at joins ⊢
  generalize step context before.1 = outcome at joins ⊢
  generalize stepToo (context.inLang other) before.2 = outcomeToo at joins ⊢
  cases outcome <;> cases outcomeToo
  · exact ⟨joins.1, more _ _ _ joins.2⟩
  · exact joins
  · exact joins
  · exact joins

theorem joins_pure {one two : α} {good : α → α → RunState × RunState → Prop}
    (valid : pairing.Paired before) (holds : good one two before) :
    pairing.Joins before (pure one) (pure two) good :=
  ⟨.refl valid, holds⟩

theorem joins_throw {error : ResolveError} {good : α → α → RunState × RunState → Prop}
    (valid : pairing.Paired before) (permits : pairing.permits error) :
    pairing.Joins before (throw error) (throw error) good :=
  ⟨rfl, permits, .refl valid⟩

theorem joins_malformed {path : String} {malformation : Malformation}
    {good : α → α → RunState × RunState → Prop} (valid : pairing.Paired before) :
    pairing.Joins before (throw (.malformed path malformation))
      (throw (.malformed path malformation)) good :=
  joins_throw valid (pairing.permitted id)

theorem joins_modify {change changeToo : RunState → RunState}
    {good : Unit → Unit → RunState × RunState → Prop}
    (reaches : pairing.Reaches before (change before.1, changeToo before.2))
    (holds : good () () (change before.1, changeToo before.2)) :
    pairing.Joins before (modify change) (modify changeToo) good :=
  ⟨reaches, holds⟩

/-- What a step does to the states is all that counts. -/
theorem joins_change {change changeToo : RunState → RunState}
    (reaches : pairing.Reaches before (change before.1, changeToo before.2)) :
    pairing.Joins before (modify change) (modify changeToo) fun _ _ _ => True :=
  joins_modify reaches trivial

theorem Joins.bind {step stepToo : Run α} {next nextToo : α → Run β}
    {good : α → α → RunState × RunState → Prop} {better : β → β → RunState × RunState → Prop}
    (first : pairing.Joins before step stepToo good)
    (rest : ∀ one two middle, pairing.Reaches before middle → good one two middle →
      pairing.Joins middle (next one) (nextToo two) better) :
    pairing.Joins before (step >>= next) (stepToo >>= nextToo) better := by
  unfold Joins at first
  split at first
  · rename_i one middle two middleToo here there
    have remaining := rest one two (middle, middleToo) first.1 first.2
    unfold Joins at remaining ⊢
    rw [Yields.bind here, Yields.bind there]
    generalize next one context middle = outcome at remaining ⊢
    generalize nextToo two (context.inLang other) middleToo = outcomeToo at remaining ⊢
    cases outcome <;> cases outcomeToo
    · exact ⟨first.1.trans remaining.1, remaining.2⟩
    · exact remaining
    · exact remaining
    · exact ⟨remaining.1, remaining.2.1, first.1.trans remaining.2.2⟩
  · rename_i here there
    unfold Joins
    rw [bind_of_error here, bind_of_error there]
    exact first
  · exact first.elim

theorem joins_of_yields {step stepToo : Run α} {one two : α} {ended endedToo : RunState}
    {good : α → α → RunState × RunState → Prop} (done : Yields context step before.1 one ended)
    (doneToo : Yields (context.inLang other) stepToo before.2 two endedToo)
    (reaches : pairing.Reaches before (ended, endedToo)) (holds : good one two (ended, endedToo)) :
    pairing.Joins before step stepToo good := by
  unfold Joins
  rw [Yields] at done doneToo
  rw [done, doneToo]
  exact ⟨reaches, holds⟩

/-- A result is known together with the step that led to it. -/
theorem Joins.andYields {step stepToo : Run α} {good : α → α → RunState × RunState → Prop}
    (joins : pairing.Joins before step stepToo good) :
    pairing.Joins before step stepToo fun one two after =>
      good one two after ∧ Yields context step before.1 one after.1 := by
  unfold Joins at joins ⊢
  cases here : step context before.1 <;> cases there : stepToo (context.inLang other) before.2
  all_goals rw [here, there] at joins
  · exact ⟨joins.1, joins.2, here⟩
  · exact joins
  · exact joins
  · exact joins

theorem joins_get_bind {next nextToo : RunState → Run β}
    {good : β → β → RunState × RunState → Prop}
    (rest : pairing.Joins before (next before.1) (nextToo before.2) good) :
    pairing.Joins before (get >>= next) (get >>= nextToo) good :=
  rest

theorem joins_read_bind {next nextToo : RunContext → Run β}
    {good : β → β → RunState × RunState → Prop}
    (rest : pairing.Joins before (next context) (nextToo (context.inLang other)) good) :
    pairing.Joins before (read >>= next) (read >>= nextToo) good :=
  rest

theorem joins_schema_bind {next nextToo : Schema → Run β}
    {good : β → β → RunState × RunState → Prop}
    (rest : pairing.Joins before (next context.catalog.schema) (nextToo context.catalog.schema)
      good) :
    pairing.Joins before (schema >>= next) (schema >>= nextToo) good :=
  rest

theorem joins_className_bind {next nextToo : String → Run β}
    {good : β → β → RunState × RunState → Prop}
    (rest : pairing.Joins before (next (context.catalog.schema.className cls))
      (nextToo (context.catalog.schema.className cls)) good) :
    pairing.Joins before (className cls >>= next) (className cls >>= nextToo) good :=
  rest

theorem joins_ofExcept_bind {outcome : Except ResolveError α} {next nextToo : α → Run β}
    {good : β → β → RunState × RunState → Prop} (valid : pairing.Paired before)
    (fails : ∀ error, outcome = .error error → pairing.permits error)
    (rest : ∀ value, outcome = .ok value → pairing.Joins before (next value) (nextToo value) good) :
    pairing.Joins before (ofExcept outcome >>= next) (ofExcept outcome >>= nextToo) good := by
  cases outcome with
  | ok value => exact rest value rfl
  | error error => exact joins_throw valid (fails error rfl)

theorem joins_harmless_bind {outcome : Except ResolveError α} {next nextToo : α → Run β}
    {good : β → β → RunState × RunState → Prop} (valid : pairing.Paired before)
    (harmless : Harmless outcome)
    (rest : ∀ value, outcome = .ok value → pairing.Joins before (next value) (nextToo value) good) :
    pairing.Joins before (ofExcept outcome >>= next) (ofExcept outcome >>= nextToo) good :=
  joins_ofExcept_bind valid (fun _ failed => pairing.permitted (harmless _ failed)) rest

theorem joins_call {path : String} {params : Params} (valid : pairing.Paired before) :
    pairing.Joins before (call path params) (call path params) fun one two _ => one = two := by
  obtain ⟨state, twin⟩ := before
  obtain ⟨arena, cache, events, rfl⟩ := valid.exists_eq
  have counted := valid.framed (state.calls ++ [⟨path, params⟩])
    { state.stats with remoteCalls := state.stats.remoteCalls + 1 } state.outputs state.origins
  apply joins_of_yields (yields_call_iff.mpr ⟨rfl, rfl⟩) (yields_call_iff.mpr ⟨rfl, rfl⟩) counted
  rfl

theorem joins_callOrFail {path : String} {params : Params} (valid : pairing.Paired before) :
    pairing.Joins before (callOrFail path params) (callOrFail path params) fun one two _ =>
      one = two := by
  unfold callOrFail
  apply (joins_call valid).bind
  rintro reply _ middle reached rfl
  cases reply with
  | ok response => exact joins_pure reached.valid rfl
  | error failure => exact joins_throw reached.valid (pairing.permitted id)

theorem joins_alloc {id : Option String} {values valuesToo : FieldValues}
    (valid : pairing.Paired before) (brings : pairing.Brings before.1.arena cls values valuesToo) :
    pairing.Joins before (alloc cls id values) (alloc cls id valuesToo) fun one two after =>
      one = two ∧ Hosts after.1.arena cls one := by
  obtain ⟨state, twin⟩ := before
  have same : pairing.SameRecord state.arena ⟨cls, id, values⟩ ⟨cls, id, valuesToo⟩ :=
    ⟨rfl, rfl, brings⟩
  apply joins_of_yields (yields_alloc_iff.mpr ⟨rfl, rfl⟩) (yields_alloc_iff.mpr ⟨rfl, rfl⟩)
    (valid.allocated same)
  exact ⟨congrArg Handle.mk valid.size_eq.symm, hosts_push _ ⟨cls, id, values⟩⟩

theorem joins_resolveAndCache (valid : pairing.Paired before)
    (known : Hosts before.1.arena target.cls target.entity)
    (suits : pairing.Suits before.1.arena target.cls name value valueToo) :
    pairing.Joins before (resolveAndCache target name value) (resolveAndCache target name valueToo)
      fun one two _ => one = two ∧ one = target.without name := by
  obtain ⟨state, twin⟩ := before
  exact joins_of_yields (yields_resolveAndCache_iff.mpr ⟨rfl, rfl⟩)
    (yields_resolveAndCache_iff.mpr ⟨rfl, rfl⟩)
    (valid.learned context.catalog.schema known suits) ⟨rfl, rfl⟩

theorem joins_resolveGiven {values valuesToo : FieldValues} {names : List String}
    (valid : pairing.Paired before) (known : Hosts before.1.arena target.cls target.entity)
    (brings : pairing.Brings before.1.arena target.cls values valuesToo) :
    pairing.Joins before (resolveGiven values names target) (resolveGiven valuesToo names target)
      fun one two _ => one = two ∧ target.Continues one := by
  induction names generalizing before target with
  | nil => exact joins_pure valid ⟨rfl, .refl _⟩
  | cons name rest inductionHypothesis =>
      simp only [resolveGiven]
      rcases optionRel_cases (brings.get? name) with
        ⟨here, there⟩ | ⟨value, valueToo, here, there, suits⟩
      · rw [here, there]
        exact inductionHypothesis valid known brings
      · rw [here, there]
        apply (joins_resolveAndCache valid known suits).bind
        rintro _ _ middle reached ⟨rfl, rfl⟩
        have knownThere : Hosts middle.1.arena (target.without name).cls
            (target.without name).entity := reached.later _ _ known
        apply (inductionHypothesis reached.valid knownThere (brings.mono reached.later)).mono
        rintro one _ after ⟨rfl, continues⟩
        exact ⟨rfl, (target.continues_without name).trans continues⟩

theorem joins_spawn {id : String} {selector : Selector} {values valuesToo : FieldValues}
    {isWeak : Bool} (valid : pairing.Paired before) (admitted : pairing.admits cls selector)
    (brings : pairing.Brings before.1.arena cls values valuesToo) :
    pairing.Joins before (spawn cls id selector values isWeak)
      (spawn cls id selector valuesToo isWeak) fun one two after =>
        one = two ∧ Hosts after.1.arena cls one := by
  have distinct := pairing.distinct admitted
  unfold spawn
  apply (joins_alloc valid .nil).bind
  rintro entity _ allocated first ⟨rfl, known⟩
  have recorded : pairing.Joins allocated
      (modify fun state =>
        { state with origins := ⟨entity, cls, id, selector, isWeak⟩ :: state.origins })
      (modify fun state =>
        { state with origins := ⟨entity, cls, id, selector, isWeak⟩ :: state.origins })
      fun _ _ _ => True := by
    obtain ⟨state, twin⟩ := allocated
    obtain ⟨arena, cache, events, rfl⟩ := first.valid.exists_eq
    exact joins_modify (first.valid.framed state.calls state.stats state.outputs
      (⟨entity, cls, id, selector, isWeak⟩ :: state.origins)) trivial
  apply recorded.bind
  rintro _ _ begun second -
  have knownBegun := second.later _ _ known
  have bringsBegun := brings.mono (first.trans second).later
  apply (joins_resolveGiven second.valid knownBegun bringsBegun).bind
  rintro target _ resolved third ⟨rfl, continues⟩
  have knownResolved := third.later _ _ knownBegun
  have fine : pairing.Fine resolved.1.arena
      ⟨entity, cls, id, selector, selector.names, isWeak⟩ :=
    ⟨⟨distinct, distinct.nodup, List.Subset.refl _⟩, admitted, knownResolved⟩
  split
  · rename_i active
    have enlisted : pairing.Joins resolved
        (modify fun state => { state with spawned := state.spawned ++ [target] })
        (modify fun state => { state with spawned := state.spawned ++ [target] })
        fun _ _ _ => True := by
      obtain ⟨state, twin⟩ := resolved
      exact joins_modify (third.valid.enlisted (fine.continues continues)) trivial
    apply enlisted.bind
    rintro _ _ after fourth -
    exact joins_pure fourth.valid ⟨rfl, fourth.later _ _ knownResolved⟩
  · exact joins_pure third.valid ⟨rfl, knownResolved⟩

end Run.Pairing

end EntityResolver
