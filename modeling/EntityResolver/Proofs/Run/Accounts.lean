import EntityResolver.Proofs.Run.Ledger

/-!
Every step of a run keeps the accounts of its cache.
-/

set_option autoImplicit false

namespace EntityResolver

variable {schema : Schema} {state before after : RunState} {base : List Event}

open Run

/-- The accounts are kept, and all entities since the events of `base` have ids. -/
structure Recording (schema : Schema) (base : List Event) (state : RunState) : Prop where
  accounted : Accounted schema state
  size : (arenaAfter base).size ≤ state.arena.size
  named : ∀ entity, InLayer base state entity → ∃ id, state.idOf? entity = some id

def Typed (schema : Schema) (cls : ClassId) (values : FieldValues) : Prop :=
  ∀ name value, (name, value) ∈ values → ∀ entity ∈ value.entities,
    ∃ inner, schema.Refers cls name inner

theorem typed_nil (schema : Schema) (cls : ClassId) : Typed schema cls [] :=
  fun _ _ member => absurd member List.not_mem_nil

namespace Recording

theorem start (accounted : Accounted schema state) : Recording schema state.events state := by
  have same : (arenaAfter state.events).size = state.arena.size := by rw [accounted.replays]
  refine ⟨accounted, same.le, fun entity since => ?_⟩
  obtain ⟨older, inside⟩ := since
  omega

theorem regroup (recording : Recording schema base before) (arena : after.arena = before.arena)
    (accounted : Accounted schema after) : Recording schema base after := by
  refine ⟨accounted, arena ▸ recording.size, fun entity since => ?_⟩
  have found := recording.named entity ⟨since.1, arena ▸ since.2⟩
  simp only [RunState.idOf?, RunState.record?, arena]
  exact found

theorem modify (recording : Recording schema base before) {position : Nat}
    {change : EntityRecord → EntityRecord}
    (arena : after.arena = before.arena.modify position change)
    (ids : (arenaAfter base).size ≤ position → ∀ record, (change record).id = record.id)
    (accounted : Accounted schema after) : Recording schema base after := by
  have size : after.arena.size = before.arena.size := by rw [arena, Array.size_modify]
  refine ⟨accounted, recording.size.trans size.ge, fun entity since => ?_⟩
  obtain ⟨id, found⟩ := recording.named entity ⟨since.1, since.2.trans_le size.le⟩
  refine ⟨id, ?_⟩
  simp only [RunState.idOf?, RunState.record?, arena, Array.getElem?_modify] at found ⊢
  split
  · rename_i same
    obtain ⟨record, here, own⟩ := Option.bind_eq_some_iff.mp found
    rw [here]
    exact (ids (same ▸ since.1) record).trans own
  · exact found

theorem enters (recording : Recording schema base state) {record : EntityRecord} {id : String}
    (named : record.id = some id) : Recording schema base (state.allocated record) := by
  have size : (state.allocated record).arena.size = state.arena.size + 1 := Array.size_push _
  refine ⟨recording.accounted.enters record, ?_, fun entity since => ?_⟩
  · have older := recording.size
    omega
  · have found : (state.allocated record).arena[entity.index]? =
        if entity.index = state.arena.size then some record else state.arena[entity.index]? :=
      Array.getElem?_push
    simp only [RunState.idOf?, RunState.record?, found]
    split
    · exact ⟨id, named⟩
    · rename_i other
      have bound := since.2
      exact recording.named entity ⟨since.1, by omega⟩

theorem learns (recording : Recording schema base state) {target : Target} {name : String}
    {value : FieldValue Handle} (plain : schema.Plain target.cls target.selector)
    (typed : ∀ entity ∈ value.entities, ∃ inner, schema.Refers target.cls name inner)
    (since : ∀ entity ∈ value.entities, InLayer base state entity) :
    Recording schema base (state.learned schema target name value) := by
  have keepable : Keepable schema state target name value := by
    refine ⟨typed, fun entity member => recording.named entity (since entity member), ?_⟩
    intro sub selected nested
    exact plain.exists_refers ((Selector.mem_resolved_iff plain.distinct).mpr selected) nested
  apply recording.modify (RunState.arena_learned ..) fun _ record => rfl
  exact recording.accounted.learns keepable

end Recording

namespace Run

variable {context : RunContext} {target : Target} {values : FieldValues} {results : FetchResults}
variable {names : List String}

theorem recording_spawn {cls : ClassId} {id : String} {selector : Selector} {isWeak : Bool}
    {entity : Handle} (recording : Recording context.catalog.schema base before)
    (plain : context.catalog.schema.Plain cls selector)
    (typed : Typed context.catalog.schema cls values) (below : AllInLayer base before values)
    (done : Yields context (spawn cls id selector values isWeak) before entity after) :
    Recording context.catalog.schema base after ∧ before.arena.size ≤ after.arena.size ∧
      InLayer base after entity := by
  obtain ⟨rfl, target, resolved, given, rfl⟩ := yields_spawn_iff.mp done
  let origin := before.next cls id selector isWeak
  let spawning (state : RunState) : Prop :=
    Recording context.catalog.schema base state ∧ state.arena.size = before.arena.size + 1
  let record : EntityRecord := ⟨cls, some id, []⟩
  have entered : Recording context.catalog.schema base (before.allocated record) :=
    recording.enters rfl
  have begun : spawning (before.begun origin) := by
    refine ⟨entered.regroup rfl ?_, Array.size_push _⟩
    exact entered.accounted.regroup rfl rfl rfl entered.accounted.classed entered.accounted.fits
  have resolving : spawning resolved := by
    apply invariant_resolveGiven ?_ begun given
    rintro state other name value continues - member ⟨recording, grown⟩
    refine ⟨?_, ?_⟩
    · apply recording.learns
      · rw [continues.selector, continues.cls]
        exact plain
      · rw [continues.cls]
        exact typed name value member
      · intro entity inValue
        obtain ⟨older, inside⟩ := below name value member entity inValue
        exact ⟨older, by omega⟩
    · rw [RunState.arena_learned, Array.size_modify]
      exact grown
  obtain ⟨recorded, grown⟩ := resolving
  have wish : origin.wish.Fits context.catalog.schema resolved.arena.size := by
    refine ⟨⟨plain.distinct, plain.distinct.nodup, List.Subset.refl _⟩, plain, ?_⟩
    exact grown ▸ Nat.lt_succ_self before.arena.size
  have enlisted : Accounted context.catalog.schema (resolved.enlisted target) := by
    refine recorded.accounted.regroup rfl rfl rfl recorded.accounted.classed fun other member => ?_
    rcases mem_waiting_enlisted member with old | rfl
    · exact recorded.accounted.fits other old
    · exact wish.continues (quiet_resolveGiven given).1
  have size : (resolved.enlisted target).arena.size = before.arena.size + 1 := grown
  refine ⟨recorded.regroup rfl enlisted, by omega, recording.size, ?_⟩
  exact size ▸ Nat.lt_succ_self before.arena.size

def recording (context : RunContext) (base : List Event) : Discipline context where
  embeds := True
  given state cls values := Typed context.catalog.schema cls values ∧ AllInLayer base state values
  admits := context.catalog.schema.Plain
  invariant := Recording context.catalog.schema base
  leads before after := before.arena.size ≤ after.arena.size
  serves state _ _ entity := InLayer base state entity
  knows _ _ := True
  refl := (layering context base).refl
  trans := (layering context base).trans
  keeps later serve := serve.grow later
  known _ := trivial
  remains _ known := known
  below plain selected refers := plain.below selected refers
  spawns := by
    intro before after cls id selector values entity recording plain _ brought done
    apply recording_spawn recording plain ?_ ?_ done
    · intro name value member entity inValue
      obtain ⟨_, _, linked⟩ := brought name value member
      obtain ⟨inner, refers | recursive, _⟩ := linked entity inValue
      · exact ⟨inner, refers⟩
      · exact plain.refers_of_isRecursive recursive
    · intro name value member entity inValue
      obtain ⟨_, _, linked⟩ := brought name value member
      obtain ⟨_, _, serve⟩ := linked entity inValue
      exact serve
  roots := by
    intro before after cls id selector values isWeak entity recording plain given done
    obtain ⟨recorded, size, _⟩ := recording_spawn recording plain given.1 given.2 done
    exact ⟨recorded, size⟩
  frame calls stats outputs recording _ := by
    have accounted := recording.accounted
    refine ⟨recording.regroup rfl ?_, Nat.le_refl _⟩
    exact accounted.regroup rfl rfl rfl accounted.classed accounted.fits
  shelves := by
    intro before after cls id sub values entity recording _ done
    obtain ⟨_, rfl⟩ := yields_alloc_iff.mp done
    have size : (before.allocated ⟨cls, some id, values⟩).arena.size = before.arena.size + 1 :=
      Array.size_push _
    exact ⟨recording.enters rfl, by omega, trivial⟩

theorem settles_recording {size : Nat}
    (fits : target.Fits context.catalog.schema (arenaAfter base).size)
    (found : ∀ values, (target.id, .found values) ∈ results →
      Typed context.catalog.schema target.cls values ∧ ∀ name value, (name, value) ∈ values →
        ∀ entity ∈ value.entities, (arenaAfter base).size ≤ entity.index ∧ entity.index < size) :
    Settles context
      (fun state => Recording context.catalog.schema base state ∧ state.arena.size = size) names
      results target where
  stores := by
    rintro state continued values name value continues given - - member ⟨recording, rfl⟩
    obtain ⟨typed, since⟩ := found values given
    refine ⟨?_, ?_⟩
    · apply recording.learns (fits.continues continues).plain
      · rw [continues.cls]
        exact typed name value member
      · exact since name value member
    · rw [RunState.arena_learned, Array.size_modify]
  forgets := by
    rintro state ⟨recording, grown⟩
    have arena : (state.forgotten target).arena =
        state.arena.modify target.entity.index fun record => { record with id := none } := rfl
    refine ⟨recording.modify arena ?_ (recording.accounted.loses target), ?_⟩
    · have older := fits.inside
      intro newer
      omega
    · rw [arena, Array.size_modify]
      exact grown

/-- Entities have come in since the earlier state, and nothing else has happened. -/
structure Copied (schema : Schema) (earlier state : RunState) : Prop where
  accounted : Accounted schema state
  cache : state.cache = earlier.cache
  entered : ∃ entered : List EntityRecord,
    state.events = entered.map Event.entered ++ earlier.events ∧
    state.arena.size = earlier.arena.size + entered.length
  latest : latest state.events = latest earlier.events

theorem Copied.since {schema : Schema} (copied : Copied schema before after) :
    before.events <:+ after.events := by
  obtain ⟨entered, same, _⟩ := copied.entered
  exact same ▸ List.suffix_append _ _

theorem Copied.size {schema : Schema} (copied : Copied schema before after) :
    before.arena.size ≤ after.arena.size := by
  obtain ⟨_, _, size⟩ := copied.entered
  omega

theorem newcomers_restore {cls : ClassId} {kept : FieldValue String} {value : FieldValue Handle}
    {count : Nat} (replays : before.arena = arenaAfter before.events)
    (size : after.arena.size = before.arena.size + count)
    (done : Yields context (kept.traverseEntities fun id => alloc cls (some id) []) before value
      after) : value.entities = newcomers before.events count := by
  have trail : (List.range after.arena.size).map Handle.mk =
      (List.range before.arena.size).map Handle.mk ++ value.entities := by
    refine trail_traverseEntities (fun state => (List.range state.arena.size).map Handle.mk) ?_ done
    intro id state copy next allocates
    obtain ⟨rfl, rfl⟩ := yields_alloc_iff.mp allocates
    have grown : (state.allocated ⟨cls, some id, []⟩).arena.size = state.arena.size + 1 :=
      Array.size_push _
    rw [grown, List.range_succ, List.map_append, List.map_singleton]
  have whole : List.range after.arena.size =
      List.range before.arena.size ++ List.range' before.arena.size count := by
    rw [size, List.range_eq_range', List.range_eq_range', ← List.range'_append_1, Nat.zero_add]
  rw [whole, List.map_append] at trail
  rw [newcomers, ← replays]
  exact (List.append_cancel_left trail).symm

theorem copied_restore {schema : Schema} {cls : ClassId} {kept : FieldValue String}
    {value : FieldValue Handle} (accounted : Accounted schema before)
    (done : Yields context (kept.traverseEntities fun id => alloc cls (some id) []) before value
      after) :
    Copied schema before after ∧ FieldValue.Rel (fun copy id => before.arena.size ≤ copy.index ∧
      after.arena[copy.index]? = some ⟨cls, some id, []⟩) value kept := by
  have start : Copied schema before before := ⟨accounted, rfl, ⟨[], rfl, rfl⟩, rfl⟩
  let grows (one other : RunState) : Prop := ∀ (index : Nat) record,
    one.arena[index]? = some record → other.arena[index]? = some record
  let isCopy (state : RunState) (id : String) (copy : Handle) : Prop :=
    before.arena.size ≤ copy.index ∧ state.arena[copy.index]? = some ⟨cls, some id, []⟩
  have keeps {one other : RunState} {id : String} {copy : Handle} (later : grows one other)
      (found : isCopy one id copy) : isCopy other id copy :=
    ⟨found.1, later _ _ found.2⟩
  have each {id : String} {state : RunState} {copy : Handle} {next : RunState} (_ : id ∈ kept.entities)
      (copied : Copied schema before state)
      (done : Yields context (alloc cls (some id) []) state copy next) :
      Copied schema before next ∧ grows state next ∧ isCopy next id copy := by
    obtain ⟨rfl, rfl⟩ := yields_alloc_iff.mp done
    obtain ⟨entered, events, size⟩ := copied.entered
    have grown : (state.allocated ⟨cls, some id, []⟩).arena.size = state.arena.size + 1 :=
      Array.size_push _
    refine ⟨⟨copied.accounted.enters _, copied.cache, ⟨⟨cls, some id, []⟩ :: entered, ?_, ?_⟩,
      copied.latest⟩, ?_, copied.size, ?_⟩
    · exact congrArg (Event.entered ⟨cls, some id, []⟩ :: ·) events
    · rw [List.length_cons]
      omega
    · intro index record found
      have inside := (Array.getElem?_eq_some_iff.mp found).1
      exact (Array.getElem?_push.trans (if_neg (Nat.ne_of_lt inside))).trans found
    · exact Array.getElem?_push.trans (if_pos rfl)
  obtain ⟨copied, _, same⟩ := yields_traverseEntities (Copied schema before) grows isCopy
    (fun _ _ _ found => found) (fun one other index record found => other _ _ (one _ _ found)) keeps
    each start done
  exact ⟨copied, same.symm⟩

theorem restores_accounted {cache : List CachedValue} {size : Nat}
    (fits : target.Fits context.catalog.schema size) :
    Restores context (fun state => Accounted context.catalog.schema state ∧ state.cache = cache ∧
      size ≤ state.arena.size) target := by
  rintro earlier state restored continued name field kept value ⟨_, same, _⟩ served continues found
    ⟨accounted, rfl, grown⟩ traversed
  obtain ⟨wanted, plain, cached⟩ := mem_servable_iff.mp served
  have cachedToo : state.cached? continued.cls continued.id name = some kept := by
    rw [continues.cls, continues.id]
    simpa only [RunState.cached?, same] using cached
  have known := accounted.ledger continued.cls continued.id name (by simp [found])
  -- The cache has not changed since the fields to serve were looked up, nor has the latest value.
  rw [cachedToo] at known
  generalize latestHeld : latest state.events continued.cls continued.id name = held? at known
  cases known with
  | @some _ held noted =>
      obtain ⟨copied, copies⟩ := copied_restore accounted traversed
      obtain ⟨entered, events, size⟩ := copied.entered
      have copiesAll := newcomers_restore accounted.replays size traversed
      have right : ServedRight context.catalog.schema restored.events continued name value := by
        refine ⟨by simp [found], ?_, copiesAll ▸ nodup_newcomers _ _, state.events, entered, held,
          events, copiesAll, ?_, ?_⟩
        · rw [continues.selector]
          obtain ⟨sub, selected⟩ := Selector.exists_mem_resolved (fits.wellFormed.selected wanted)
          have own := (Selector.mem_resolved_iff fits.wellFormed.distinct).mp selected
          rw [own, Option.all_some] at plain
          rw [own, Selector.isEmpty_iff.mp plain]
        · rw [copied.latest]
          exact latestHeld
        · apply (copies.comp noted).mono
          rintro copy - original ⟨id, ⟨isNew, record⟩, ⟨inner, refers⟩, bears⟩
          have referred : field.kind.target? = some inner := by
            obtain ⟨other, foundToo, targets⟩ := refers
            cases found.symm.trans foundToo
            exact targets
          rw [referred, Option.getD_some, copied.accounted.replays] at record
          refine ⟨accounted.replays ▸ isNew, inner, id, refers, ?_, record⟩
          exact bears.mono copied.since
      have stored := copied.accounted.serves right
      have size : (restored.stored .cache continued name value).arena.size = restored.arena.size :=
        Array.size_modify
      refine ⟨stored.regroup rfl rfl rfl stored.classed stored.fits, copied.cache, ?_⟩
      exact (grown.trans copied.size).trans size.ge

theorem accounted_swept {swept : List (ClassId × List Target)}
    (accounted : Accounted context.catalog.schema before)
    (sweeps : Yields context (sweepPools before.pools) before swept after) :
    Accounted context.catalog.schema { after with pools := prune swept } := by
  have restores : ∀ target ∈ before.pooled, Restores context (fun state =>
      Accounted context.catalog.schema state ∧ state.cache = before.cache ∧
        before.arena.size ≤ state.arena.size) target :=
    fun target member => restores_accounted (accounted.fits target (List.mem_append_left _ member))
  obtain ⟨final, _, grown⟩ :=
    invariant_sweepPools restores ⟨accounted, rfl, Nat.le_refl _⟩ sweeps
  obtain ⟨pairs, _⟩ := quiet_sweepPools sweeps
  refine final.regroup rfl rfl rfl ?_ fun target member => ?_
  · exact classed_prune (classed_sweepPools pairs accounted.classed)
  · obtain ⟨old, waited, continues⟩ := mem_waiting_swept sweeps member
    exact ((accounted.fits old waited).continues continues).grow grown

theorem accounted_filled {schema : Schema} (accounted : Accounted schema before) :
    Accounted schema before.filled :=
  accounted.regroup rfl rfl rfl (classed_filled accounted.classed) fun target member =>
    accounted.fits target (mem_waiting_filled member)

theorem accounted_start (schema : Schema) (calls : List Call) :
    Accounted schema { calls := calls } := by
  refine ⟨rfl, fun _ _ _ _ => .none, fun past target name value served => ?_, ?_, ?_⟩
  · cases List.suffix_nil.mp served
  · simp [RunState.Classed]
  · simp [RunState.waiting, RunState.pooled]

/-- What is needed of demands for the accounts to be kept. -/
structure Orderly (context : RunContext) (before : RunState) (demands : List Demand) : Prop where
  distinct : ∀ demand ∈ demands, demand.selector.Distinct
  nests : ∀ demand ∈ demands, ∀ cls, demand.Begins context.catalog cls →
    context.catalog.schema.Nests cls demand.selector
  typed : ∀ demand ∈ demands, ∀ cls, demand.Begins context.catalog cls →
    Typed context.catalog.schema cls demand.values
  known : GivesKnown context before demands

theorem Orderly.of_valueless {demands : List Demand}
    (valueless : ∀ demand ∈ demands, demand.values = [])
    (distinct : ∀ demand ∈ demands, demand.selector.Distinct)
    (nests : ∀ demand ∈ demands, ∀ cls, demand.Begins context.catalog cls →
      context.catalog.schema.Nests cls demand.selector) : Orderly context before demands where
  distinct := distinct
  nests := nests
  typed demand member _ _ := valueless demand member ▸ typed_nil _ _
  known := givesKnown_of_nil valueless

theorem accounted_of_begun {demands : List Demand} {earlier : List Call}
    (orderly : Orderly context { calls := earlier } demands) :
    Meets context (do Demand.placeAll demands; prepare) { calls := earlier }
      (fun _ => Accounted context.catalog.schema) (Accounted context.catalog.schema) := by
  let discipline := recording context []
  have ignores : discipline.IgnoresPrerequisites := fun state prerequisites recording =>
    have accounted := recording.accounted
    ⟨recording.regroup rfl (accounted.regroup rfl rfl rfl accounted.classed accounted.fits),
      Nat.le_refl _⟩
  have accepted : discipline.AcceptsAll { calls := earlier } demands := by
    rintro placed demand rest split state done
    have member : demand ∈ demands := by simp [split]
    refine ⟨fun cls begun => ⟨orderly.typed demand member cls begun, ?_⟩, fun cls begun => ?_⟩
    · intro name value stored entity inValue
      exact ⟨Nat.zero_le _,
        orderly.known placed demand rest split state done name value stored entity inValue⟩
    · exact .of_nests (orderly.distinct demand member) (orderly.nests demand member cls begun)
  have start : Recording context.catalog.schema [] { calls := earlier } :=
    .start (accounted_start _ earlier)
  apply meets_bind_iff.mpr
  apply Meets.mono (discipline.placeAll trivial ignores accepted start
    (by simp [Discipline.Awaits]))
  · rintro _ placed ⟨reached, awaits, _⟩
    apply (discipline.prepare trivial ignores reached.valid awaits).mono
    · rintro _ ready ⟨satisfied, settled, _, pooled⟩
      cases yields_poolSpawned_iff.mp pooled
      exact accounted_filled settled.valid.accounted
    · exact fun failed reached => reached.valid.accounted
  · exact fun failed reached => reached.valid.accounted

theorem admitsBelow_of_best (base : List Event) {cls : ClassId} {pool : List Target}
    {getter : Getter}
    {candidacy : Candidacy} {size : Nat}
    (fits : ∀ target ∈ pool, target.Fits context.catalog.schema size ∧ target.cls = cls)
    (best : bestCandidacy? pool (context.catalog.gettersOf cls) = some (getter, candidacy)) :
    getter.cls = cls ∧ (recording context base).AdmitsBelow cls candidacy.selector := by
  obtain ⟨offers, offered⟩ := mem_of_bestCandidacy best
  have valid : ∀ target ∈ pool, target.WellFormed := fun target member =>
    (fits target member).1.wellFormed
  obtain ⟨first, serves⟩ := Getter.candidacy_serves valid offered
  obtain ⟨fitsFirst, sameClass⟩ := fits first serves.first_mem
  refine ⟨by simpa [Catalog.gettersOf] using (List.mem_filter.mp offers).2, ?_⟩
  refine admitsBelow_of_serves serves fitsFirst.wellFormed fun selected distinct same refers => ?_
  exact (fitsFirst.plain.below selected (sameClass.symm ▸ refers)).of_same distinct same

theorem settles_of_delivered {fetched : RunState} {selector : Selector}
    (fits : target.Fits context.catalog.schema (arenaAfter base).size)
    (delivered : (recording context base).Delivered fetched target.cls selector results) :
    Settles context (fun state => Recording context.catalog.schema base state ∧
      state.arena.size = fetched.arena.size) names results target := by
  apply settles_recording fits
  intro values found
  have brought := delivered target.id values found
  refine ⟨fun name value stored entity inValue => ?_, fun name value stored entity inValue => ?_⟩
  · obtain ⟨_, _, suits⟩ := brought name value stored
    obtain ⟨inner, refers, _⟩ := suits entity inValue
    exact ⟨inner, refers⟩
  · obtain ⟨_, _, suits⟩ := brought name value stored
    obtain ⟨_, _, since⟩ := suits entity inValue
    exact since

theorem accounted_settled {fetched : RunState} {cls : ClassId} {selector : Selector}
    {pool : List Target} {path : String} {chosen : List Nat}
    (accounted : Accounted context.catalog.schema before)
    (fits : ∀ target ∈ pool,
      target.Fits context.catalog.schema before.arena.size ∧ target.cls = cls)
    (recorded : Recording context.catalog.schema before.events fetched)
    (later : before.arena.size ≤ fetched.arena.size)
    (delivered : (recording context before.events).Delivered fetched cls selector results) :
    Meets context (settleChosen path names results chosen 0 pool) fetched
      (fun settled last => Accounted context.catalog.schema
        { last with pools := last.pools ++ prune [(cls, settled)] })
      (Accounted context.catalog.schema) := by
  have settles : ∀ target ∈ pool, Settles context (fun state =>
      Recording context.catalog.schema before.events state ∧
        state.arena.size = fetched.arena.size) names results target := by
    intro target member
    obtain ⟨own, same⟩ := fits target member
    rw [accounted.replays] at own
    exact settles_of_delivered own (same ▸ delivered)
  apply (meets_settleChosen settles ⟨recorded, rfl⟩).mono ?_ fun _ kept => kept.1.accounted
  rintro settled last ⟨pairs, recorded, grown⟩
  have kept := recorded.accounted
  refine kept.regroup rfl rfl rfl ?_ fun target member => ?_
  · exact classed_settled kept.classed pairs fun target member => (fits target member).2
  · rcases mem_waiting_settled pairs member with waits | ⟨old, inPool, continues⟩
    · exact kept.fits target waits
    · apply ((fits old inPool).1.continues continues).grow
      rw [grown]
      exact later

theorem accounted_served (accounted : Accounted context.catalog.schema before)
    (waiting : before.pools ≠ []) :
    Meets context serveFirst before (fun _ => Accounted context.catalog.schema)
      (Accounted context.catalog.schema) := by
  obtain ⟨⟨cls, pool⟩, others, first⟩ := List.exists_cons_of_ne_nil waiting
  have classed := accounted.classed
  rw [first] at classed
  have fits : ∀ target ∈ pool,
      target.Fits context.catalog.schema before.arena.size ∧ target.cls = cls :=
    fun target member => ⟨accounted.fits target (mem_waiting_first first member),
      classed cls pool List.mem_cons_self target member⟩
  have classedOthers : RunState.Classed others := fun other pool member =>
    classed other pool (List.mem_cons_of_mem _ member)
  have shortened : Accounted context.catalog.schema { before with pools := others } :=
    accounted.regroup rfl rfl rfl classedOthers fun target member =>
      accounted.fits target (mem_waiting_others first member)
  apply meets_serveFirst first shortened
  intro getter candidacy best
  obtain ⟨rfl, below⟩ := admitsBelow_of_best before.events fits best
  have start : Recording context.catalog.schema before.events { before with pools := others } :=
    .start shortened
  have fetches : (recording context before.events).Fetches getter.cls candidacy.selector
      (getter.fetch candidacy) := Discipline.fetch (.inr trivial) _ below
  apply Meets.mono (fetches start)
  · rintro results fetched ⟨⟨recorded, later⟩, delivered⟩
    exact accounted_settled accounted fits recorded later delivered
  · exact fun failed reached => reached.valid.accounted

theorem accounted_round (accounted : Accounted context.catalog.schema before)
    (waiting : before.pools ≠ []) :
    Meets context round before (fun _ => Accounted context.catalog.schema)
      (Accounted context.catalog.schema) := by
  have counted : Accounted context.catalog.schema before.counted :=
    accounted.regroup rfl rfl rfl accounted.classed accounted.fits
  apply meets_round (accounted_served counted waiting)
  exact fun middle swept last served sweeps => accounted_swept (accounted_filled served) sweeps

theorem accounted_rounds (limit : Nat) (accounted : Accounted context.catalog.schema before) :
    Meets context (rounds limit) before (fun _ => Accounted context.catalog.schema)
      (Accounted context.catalog.schema) := by
  apply (meets_rounds limit accounted_round accounted).mono
  · exact fun isDone after ended => ended.1
  · exact fun after failed => failed

end Run

end EntityResolver
