import EntityResolver.Proofs.Run.Requests

/-!
# Getting entities that may not exist

Of the entities asked for by id, a request finds those that no method reports to be absent. Asking
for one entity gives what asking for several would give of it. A run fails for an absent entity only
if it must exist: a picker has created it, or a field of it is resolved already.
-/

set_option autoImplicit false

namespace EntityResolver

/-- Everything is true of every entity, and none is lacking. -/
def Truth.plenty (schema : Schema) : Truth schema where
  holds _ _ _ _ := True
  lacks _ _ _ := False
  wider := False.elim
  kept _ _ := True.intro

namespace Run

variable {context : RunContext} {before placed ready final : RunState} {cls : ClassId}
variable {selector : Selector} {ids : List String} {roots : List (String × Handle)}
variable {earlier : List Call} {root : String × Handle}

theorem spawnRoots_eq (cls : ClassId) (selector : Selector) (ids : List String) :
    Session.spawnRoots cls selector ids =
      ids.zip <$> spawnWeak (ids.map fun id => ⟨(cls, id), selector⟩) := by
  induction ids with
  | nil => rfl
  | cons id rest inductionHypothesis =>
      simp only [Session.spawnRoots, inductionHypothesis, List.map_cons, spawnWeak,
        map_eq_pure_bind, bind_assoc, pure_bind, List.zip_cons_cons]

theorem placeAll_eq_spawnRoots (cls : ClassId) (selector : Selector) (ids : List String) :
    Demand.placeAll (ids.map fun id => .entity cls id selector [] true) =
      (do let _ ← Session.spawnRoots cls selector ids) := by
  induction ids with
  | nil => rfl
  | cons id rest inductionHypothesis =>
      simp only [List.map_cons, Demand.placeAll, Demand.place, inductionHypothesis,
        Session.spawnRoots, bind_assoc, pure_bind]

/-- In the run that goes on from the state, a method reports the entity to be absent. -/
def Absent (context : RunContext) (ready : RunState) (entity : Handle) : Prop :=
  ∃ state target, Passes context ready state ∧ ReportsAbsent context state target ∧
    target.entity = entity

/-- The roots have been spawned in order, and the run is ready for its first round. -/
theorem ready_of_yields (truth : Truth context.catalog.schema) (distinct : selector.Distinct)
    (spawned : Yields context (Session.spawnRoots cls selector ids) { calls := earlier } roots
      placed)
    (prepared : Yields context prepare placed () ready) :
    Steady truth ready ∧ roots.map Prod.fst = ids ∧
      ∀ root ∈ roots, ⟨root.2, cls, root.1, selector, true⟩ ∈ ready.origins := by
  rw [spawnRoots_eq, yields_map_iff] at spawned
  obtain ⟨handles, spawned, rfl⟩ := spawned
  have distinctAll : ∀ root ∈ ids.map (fun id => (⟨(cls, id), selector⟩ : Root)),
      root.selector.Distinct := by
    simpa using fun _ _ => distinct
  obtain ⟨handlesToo, placedToo, readyToo, spawnedToo, preparedToo, isReady⟩ :=
    exists_ready truth earlier distinctAll
  obtain ⟨rfl, rfl⟩ := spawned.unique spawnedToo
  obtain ⟨_, rfl⟩ := prepared.unique preparedToo
  have pairs := List.forall₂_map_left_iff.mp isReady.spawned
  refine ⟨isReady.steady, List.map_fst_zip pairs.length_eq.le, fun root member => ?_⟩
  exact (List.forall₂_iff_zip.mp pairs).2 member

/-- A root keeps its id to the end, unless a method reports it to be absent. -/
theorem record_of_root (tableless : ∀ method, .table method ∉ context.catalog.getters)
    (steady : Steady (.plenty context.catalog.schema) ready)
    (steadyToo : Steady (.trivial context.catalog.schema) ready) {origin : Origin}
    (member : origin ∈ ready.origins) (passes : Passes context ready final)
    (empty : final.pools = []) :
    ∃ record, final.record? origin.entity = some record ∧ record.cls = origin.cls ∧
      (Absent context ready origin.entity → record.id = none) ∧
      (¬ Absent context ready origin.entity → record.id = some origin.id) := by
  obtain ⟨values, holds⟩ : ∃ values,
      ready.record? origin.entity = some ⟨origin.cls, some origin.id, values⟩ := by
    rcases steady.sound.fates origin member with ⟨target, _, pending⟩ | settled
    · obtain ⟨values, holds⟩ := pending.holds
      exact ⟨values, holds.record⟩
    · cases settled with
      | met holds => exact ⟨_, holds.record⟩
      | gone _ _ lacks => exact lacks.elim
  have faithful := faithful_trivial context
  obtain ⟨lost, loses, denied⟩ := Passes.loses faithful steadyToo passes
  obtain ⟨record, found, sameClass, gone, kept⟩ := loses.known holds
  refine ⟨record, found, sameClass, ?_, fun present => kept fun isLost => present ?_⟩
  · rintro ⟨state, target, through, reports, same⟩
    obtain ⟨recordToo, foundToo, noId⟩ :=
      through.gone faithful steadyToo passes empty reports.denied
    cases found.symm.trans (same ▸ foundToo)
    exact noId
  · obtain ⟨state, target, through, isDenied, _, same⟩ := denied _ isLost
    have steadyState := (Passes.steady faithful steadyToo through).1
    exact ⟨state, target, through, isDenied.reportsAbsent steadyState tableless, same.symm⟩

end Run

namespace Session

open Run

variable {session : Session} {cls : ClassId} {selector : Selector} {ids : List String}
variable {earlier after : SessionState} {found : List (String × Entity)}

/-- The roots of a request have been spawned, and its run is ready for the first round. -/
def Begins (session : Session) (cls : ClassId) (selector : Selector) (ids : List String)
    (earlier : SessionState) (roots : List (String × Handle)) (ready : RunState) : Prop :=
  ∃ placed, Yields session.context (spawnRoots cls selector ids) { calls := earlier.calls } roots
    placed ∧ Yields session.context prepare placed () ready

open Classical in
/-- At the end of a run, roots are trees that have their ids unless these were reported absent. -/
theorem exists_begins_of_yields {roots : List (String × Handle)} {ended : RunState}
    (tableless : ∀ method, .table method ∉ session.catalog.getters) (distinct : selector.Distinct)
    (done : Yields session.context (steps (spawnRoots cls selector ids) pure)
      { calls := earlier.calls } roots ended) :
    ∃ ready, session.Begins cls selector ids earlier roots ready ∧ roots.map Prod.fst = ids ∧
      ∀ root ∈ roots,
        (ended.materialize session.context.catalog.schema root.2).className =
          session.catalog.schema.className cls ∧
        (ended.materialize session.context.catalog.schema root.2).id =
          if Absent session.context ready root.2 then none else some root.1 := by
  obtain ⟨_, placed, ready, final, spawned, prepared, rounds, finished⟩ :=
    yields_stepsWithin_iff.mp done
  obtain ⟨rfl, rfl⟩ := yields_pure_iff.mp finished
  obtain ⟨steady, keys, spawnedAll⟩ := ready_of_yields (.plenty _) distinct spawned prepared
  obtain ⟨steadyToo, _⟩ := ready_of_yields (.trivial _) distinct spawned prepared
  obtain ⟨passes, empty⟩ := passes_of_rounds rounds
  refine ⟨ready, ⟨placed, spawned, prepared⟩, keys, fun root member => ?_⟩
  obtain ⟨record, found, sameClass, gone, kept⟩ := record_of_root tableless steady steadyToo
    (spawnedAll root member) passes (empty rfl)
  have foundToo : { final with cache := [] }.record? root.2 = some record := found
  obtain ⟨_, sameName, sameId⟩ :=
    RunState.tree_of_record session.context.catalog.schema foundToo _
  refine ⟨sameName.trans (congrArg _ sameClass), sameId.trans ?_⟩
  split
  · rename_i absent
    exact gone absent
  · rename_i present
    exact kept present

open Classical in
/-- What is found of several entities is what no method has reported to be absent. -/
theorem exists_begins_of_getManyWith
    (tableless : ∀ method, .table method ∉ session.catalog.getters) (distinct : selector.Distinct)
    (done : session.getManyWith cls ids selector earlier = .ok found after) :
    ∃ roots ready, session.Begins cls selector ids.eraseDups earlier roots ready ∧
      roots.map Prod.fst = ids.eraseDups ∧
      found.map Prod.fst =
        (roots.filter fun root => ¬ Absent session.context ready root.2).map Prod.fst ∧
      ∀ entry ∈ found, entry.2.id = some entry.1 := by
  obtain ⟨ended, runs, rfl⟩ := run_eq_ok_iff.mp done
  rw [steps_eq_bind, Candidacy.distinct_eq_eraseDups] at runs
  obtain ⟨roots, _, settled, finished⟩ := yields_bind_iff.mp runs
  obtain ⟨rfl, rfl⟩ := yields_presentTrees_iff.mp finished
  obtain ⟨ready, begins, keys, trees⟩ := exists_begins_of_yields tableless distinct settled
  refine ⟨roots, ready, begins, keys, ?_, fun entry member => ?_⟩
  · rw [List.filter_map, List.map_map]
    refine congrArg (List.map Prod.fst) (List.filter_congr fun root member => ?_)
    by_cases absent : Absent session.context ready root.2 <;>
      simp [Entity.isPresent, (trees root member).2, absent]
  · obtain ⟨inTrees, isPresent⟩ := List.mem_filter.mp member
    obtain ⟨root, inRoots, rfl⟩ := List.mem_map.mp inTrees
    have fate := (trees root inRoots).2
    split at fate
    · simp [Entity.isPresent, fate] at isPresent
    · exact fate

/-- What is said of one id that was asked for, as an answer to a request for its entity. -/
def only (className id : String) : EStateM.Result ResolveError SessionState
      (List (String × Entity)) → EStateM.Result ResolveError SessionState Entity
  | .ok ((_, entity) :: _) after => .ok entity after
  | .ok [] after => .error (.entityNotFound className id) after
  | .error error after => .error error after

theorem getWith_eq_only (tableless : ∀ method, .table method ∉ session.catalog.getters)
    (cls : ClassId) (id : String) (distinct : selector.Distinct) (earlier : SessionState) :
    session.getWith cls id selector earlier = only (session.catalog.schema.className cls) id
      (session.getManyWith cls [id] selector earlier) := by
  have want : spawnRoots cls selector (Candidacy.distinct [id]) =
      (fun entity => [(id, entity)]) <$> spawn cls id selector [] true := by
    change spawnRoots cls selector [id] = _
    simp only [spawnRoots, map_eq_pure_bind, pure_bind]
  have settles := congrArg (fun want => steps want pure) want
  rw [steps_map] at settles
  cases outcome : steps (spawn cls id selector [] true) pure session.context
      { calls := earlier.calls } with
  | error error ended =>
      have failed : steps (spawnRoots cls selector (Candidacy.distinct [id])) pure session.context
          { calls := earlier.calls } = .error error ended := by
        rw [settles, map_eq_pure_bind]
        exact bind_of_error outcome _
      rw [getManyWith, run_of_unsettled session presentTrees failed]
      change (session.run _ tree >>= _) earlier = _
      simp only [bind, EStateM.bind, run_of_unsettled session tree outcome, only]
  | ok handle ended =>
      have settled : Yields session.context
          (steps (spawnRoots cls selector (Candidacy.distinct [id])) pure)
          { calls := earlier.calls } [(id, handle)] ended :=
        settles ▸ yields_map_iff.mpr ⟨handle, outcome, rfl⟩
      obtain ⟨ready, _, _, trees⟩ := exists_begins_of_yields tableless distinct settled
      obtain ⟨sameName, _⟩ := trees _ List.mem_cons_self
      rw [getManyWith, run_of_settled session settled (yields_presentTrees_iff.mpr ⟨rfl, rfl⟩)]
      change (session.run _ tree >>= _) earlier = _
      simp only [bind, EStateM.bind,
        run_of_settled session outcome (yields_tree_iff.mpr ⟨rfl, rfl⟩)]
      by_cases isPresent :
          (ended.materialize session.context.catalog.schema handle).isPresent = true
      · simp only [List.map_cons, List.map_nil, List.filter_cons, isPresent, if_true, only]
        rfl
      · simp only [List.map_cons, List.map_nil, List.filter_cons, isPresent, if_false, only,
          Bool.false_eq_true, List.filter_nil, sameName]
        rfl

/-- Getting several entities makes one run, which has them as roots. -/
theorem runWithin_fails_of_getManyWith {error : ResolveError}
    (failed : session.getManyWith cls ids selector earlier = .error error after) :
    Fails session.context (Demand.runWithin session.roundLimit
      (ids.eraseDups.map fun id => .entity cls id selector [] true)) { calls := earlier.calls }
      error := by
  rw [← Candidacy.distinct_eq_eraseDups]
  have quiet (roots : List (String × Handle)) (state : RunState) :
      Succeeds session.context (presentTrees roots) state :=
    ⟨_, _, yields_presentTrees_iff.mpr ⟨rfl, rfl⟩⟩
  exact fails_of_run_eq_error (placeAll_eq_spawnRoots cls selector _) quiet failed

/-- Whatever is got, getting several entities finds exactly those that exist, getting one agrees
with it, and a run fails for an entity that does not exist only if it must exist. -/
theorem finds_existing (session : Session)
    (tableless : ∀ method, .table method ∉ session.catalog.getters) (cls : ClassId)
    (selector : Selector) (distinct : selector.Distinct) (earlier : SessionState) :
    (∀ ids found after, session.getManyWith cls ids selector earlier = .ok found after →
      ∃ roots ready, session.Begins cls selector ids.eraseDups earlier roots ready ∧
        roots.map Prod.fst = ids.eraseDups ∧
        (open Classical in found.map Prod.fst =
          (roots.filter fun root => ¬ Absent session.context ready root.2).map Prod.fst) ∧
        ∀ entry ∈ found, entry.2.id = some entry.1) ∧
    (∀ id, session.getWith cls id selector earlier = only (session.catalog.schema.className cls) id
      (session.getManyWith cls [id] selector earlier)) ∧
    (∀ ids error after, session.getManyWith cls ids selector earlier = .error error after →
      ∃ ended, Demand.runWithin session.roundLimit
        (ids.eraseDups.map fun id => .entity cls id selector [] true) session.context
        { calls := earlier.calls } = .error error ended) ∧
    ∀ (demands : List Demand) limit error ended,
      (∀ demand ∈ demands, demand.selector.Distinct ∧ demand.Unsure) →
      Demand.runWithin limit demands session.context { calls := earlier.calls } =
        .error error ended → error.isAbsence = true →
      ∃ ready state target,
        Yields session.context (do Demand.placeAll demands; prepare) { calls := earlier.calls } ()
          ready ∧
        Passes session.context ready state ∧ ReportsAbsent session.context state target ∧
        Misses session.context target error ∧ Committed state target := by
  refine ⟨fun ids found after done => exists_begins_of_getManyWith tableless distinct done,
    fun id => getWith_eq_only tableless cls id distinct earlier,
    fun ids error after => runWithin_fails_of_getManyWith, ?_⟩
  intro demands limit error ended wanted failed absence
  obtain ⟨ready, state, target, begun, passes, denied, misses, steady, committed⟩ :=
    misses_of_run wanted ⟨ended, failed⟩ absence
  exact ⟨ready, state, target, begun, passes, denied.reportsAbsent steady tableless, misses,
    committed⟩

end Session

namespace Units

open Run

/-- The parent of the last unit does not exist. -/
def orphaned : Session where
  catalog := (context []).catalog
  remote := remote [("1", .null), ("2", .str "1"), ("8", .str "9")]
  roundLimit := 4

/-- An unknown unit is left out of several and missed when it is got alone. An unknown parent makes
a run fail. -/
theorem finds_existing_orphaned :
    (∃ found after roots ready,
      orphaned.getManyWith cls ["2", "7", "2", "1"] twice {} = .ok found after ∧
      orphaned.Begins cls twice ["2", "7", "1"] {} roots ready ∧
      (open Classical in ["2", "1"] =
        (roots.filter fun root => ¬ Absent orphaned.context ready root.2).map Prod.fst)) ∧
    (∃ after, orphaned.getWith cls "7" twice {} = .error (.entityNotFound "Unit" "7") after) ∧
    ∃ ready state target, Passes orphaned.context ready state ∧
      ReportsAbsent orphaned.context state target ∧
      Misses orphaned.context target (.entityNotFound "Unit" "9") ∧ Committed state target := by
  have tableless : ∀ method, .table method ∉ orphaned.catalog.getters := by
    simp [orphaned, context]
  have distinct : twice.Distinct := by simp [twice, Selector.Distinct, Selector.names]
  obtain ⟨exactly, agrees, _, strong⟩ :=
    Session.finds_existing orphaned tableless cls twice distinct {}
  refine ⟨?_, ⟨_, (agrees "7").trans rfl⟩, ?_⟩
  · obtain ⟨roots, ready, begins, _, keys, _⟩ := exactly ["2", "7", "2", "1"] _ _ rfl
    exact ⟨_, _, roots, ready, rfl, begins, keys⟩
  · obtain ⟨ready, state, target, _, passes, reports, misses, committed⟩ :=
      strong [.entity cls "8" twice [] true] 4 (.entityNotFound "Unit" "9") _
        (by simpa [Demand.selector, Demand.Unsure] using distinct) rfl rfl
    exact ⟨ready, state, target, passes, reports, misses, committed⟩

end Units

end EntityResolver
