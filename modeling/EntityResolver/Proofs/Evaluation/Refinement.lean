import EntityResolver.Proofs.Evaluation.Progress
import EntityResolver.Proofs.Evaluation.Results
import EntityResolver.Proofs.Recursion
import EntityResolver.Session

/-!
# Runs refine direct evaluation

In whatever rounds, batches and halves a run comes to know the fields of entities, it ends with the
trees that evaluation gives. It fails only where evaluation does, and it ends where references do.
-/

set_option autoImplicit false

namespace EntityResolver

def Root.origin (root : Root) (entity : Handle) : Origin :=
  ⟨entity, root.key.1, root.key.2, root.selector, true⟩

namespace Run

def spawnWeak : List Root → Run (List Handle)
  | [] => pure []
  | root :: rest => do
      let entity ← spawn root.key.1 root.key.2 root.selector [] true
      let entities ← spawnWeak rest
      return entity :: entities

/-- The trees of roots, by a run that is given up after `limit` rounds. -/
def resolveWithin (limit : Nat) (roots : List Root) : Run (List Entity) :=
  Session.stepsWithin limit (spawnWeak roots) Session.trees

variable {context : RunContext} {records : Records} {before after state ready : RunState}
variable {truth : Truth context.catalog.schema} {roots : List Root} {handles : List Handle}
variable {earlier : List Call}

structure Rooted (truth : Truth context.catalog.schema) (roots : List Root) (handles : List Handle)
    (before after : RunState) : Prop where
  sound : Sound truth after.spawned after
  keeps : before.Keeps after
  layering : Layering [] after
  spawned : List.Forall₂ (fun root entity => root.origin entity ∈ after.origins) roots handles
  only : ∀ origin ∈ after.origins, origin ∈ before.origins ∨
    ∃ root ∈ roots, ∃ entity ∈ handles, origin = root.origin entity
  pools : after.pools = before.pools
  prerequisites : after.prerequisites = before.prerequisites

theorem exists_rooted (distinct : ∀ root ∈ roots, root.selector.Distinct)
    (sound : Sound truth before.spawned before) (layering : Layering [] before) :
    ∃ handles after, Yields context (spawnWeak roots) before handles after ∧
      Rooted truth roots handles before after := by
  induction roots generalizing before with
  | nil =>
      exact ⟨[], before, yields_pure_iff.mpr ⟨rfl, rfl⟩, sound, .refl _, layering, .nil,
        fun origin member => .inl member, rfl, rfl⟩
  | cons root rest inductionHypothesis =>
      let origin := before.next root.key.1 root.key.2 root.selector true
      have first : Yields context (spawn root.key.1 root.key.2 root.selector [] true) before
          ⟨before.arena.size⟩ (before.wished origin) :=
        yields_spawn_nil_iff.mpr ⟨rfl, rfl⟩
      obtain ⟨member, keeps, new, queue, soundFirst⟩ :=
        sound.spawn (distinct root List.mem_cons_self) (by simp [Carries]) first
      obtain ⟨layeringFirst, _⟩ :=
        layering_spawn layering (allInLayer_nil _ _) first
      have soundMiddle : Sound truth (before.wished origin).spawned (before.wished origin) := by
        rw [queue]
        exact soundFirst.perm List.perm_append_comm
      obtain ⟨handles, after, remaining, rooted⟩ := inductionHypothesis
        (fun other member => distinct other (List.mem_cons_of_mem _ member)) soundMiddle layeringFirst
      refine ⟨⟨before.arena.size⟩ :: handles, after, ?_, rooted.sound, keeps.trans rooted.keeps,
        rooted.layering, .cons (rooted.keeps.origins _ member) rooted.spawned, ?_, rooted.pools,
        rooted.prerequisites⟩
      · simp only [spawnWeak, yields_bind_iff, yields_pure_iff]
        exact ⟨_, _, first, handles, _, remaining, rfl, rfl⟩
      · intro other inAfter
        rcases rooted.only other inAfter with inMiddle | ⟨one, inRest, entity, inHandles, rfl⟩
        · rcases List.mem_cons.mp inMiddle with rfl | old
          · exact .inr ⟨root, List.mem_cons_self, _, List.mem_cons_self, rfl⟩
          · exact .inl old
        · exact .inr ⟨one, List.mem_cons_of_mem _ inRest, entity, List.mem_cons_of_mem _ inHandles,
            rfl⟩

structure Ready (truth : Truth context.catalog.schema) (roots : List Root) (handles : List Handle)
    (ready : RunState) : Prop where
  steady : Steady truth ready
  tracked : Tracked [] 0 ready
  lively : RunState.Lively ready.pools
  spawned : List.Forall₂ (fun root entity => root.origin entity ∈ ready.origins) roots handles
  waits : ∀ target ∈ ready.pooled, ∃ root ∈ roots,
    target.entity ∈ handles ∧ target.key = root.key ∧ target.selector = root.selector

theorem exists_ready (truth : Truth context.catalog.schema) (earlier : List Call)
    (distinct : ∀ root ∈ roots, root.selector.Distinct) :
    ∃ handles placed ready, Yields context (spawnWeak roots) { calls := earlier } handles placed ∧
      Yields context prepare placed () ready ∧ Ready truth roots handles ready := by
  obtain ⟨handles, placed, done, rooted⟩ :=
    exists_rooted distinct (.start truth earlier) (layering_start earlier)
  let satisfied : RunState := { placed with prerequisites := [] }
  have prepared : Yields context prepare placed () satisfied.filled := by
    refine yields_prepare_iff.mpr ⟨satisfied, ?_, rfl⟩
    rw [rooted.prerequisites]
    exact yields_pure_iff.mpr ⟨rfl, rfl⟩
  have none : satisfied.pools = [] := rooted.pools
  obtain ⟨soundSatisfied, _⟩ := rooted.sound.frame placed.pools placed.spawned [] placed.outputs
    placed.stats placed.calls
  have steady : Steady truth satisfied.filled := .of_spawned soundSatisfied none
  have tracked : Tracked [] 0 satisfied := by
    have placed := tracked_of_layering rooted.layering
    exact placed.regroup rfl rfl rfl rfl placed.holding.targets
  refine ⟨handles, placed, _, done, prepared,
    ⟨steady, tracked_filled tracked, ?_, rooted.spawned, ?_⟩⟩
  · apply lively_filled
    rw [none]
    intro cls pool member
    cases member
  · intro target member
    obtain ⟨origin, spawned, pending⟩ := steady.sound.waits target member
    rcases rooted.only origin spawned with old | ⟨root, inRoots, entity, inHandles, rfl⟩
    · cases old
    · refine ⟨root, inRoots, ?_, pending.key, pending.continues.selector⟩
      rw [pending.entity]
      exact inHandles

theorem evaluateRoot_unique {root : Root} {depth deeper : Nat} {one other : Entity}
    (first : records.evaluateRoot context depth root = some one)
    (second : records.evaluateRoot context deeper root = some other) : one = other := by
  unfold Records.evaluateRoot at first second
  by_cases absent : records.Absent context root.key root.selector
  · rw [if_pos absent] at first second
    exact Option.some.inj (first.symm.trans second)
  · rw [if_neg absent] at first second
    exact Records.evaluate_unique first second

theorem evaluateRoots_unique {depth deeper : Nat} {one other : List Entity}
    (first : roots.mapM (records.evaluateRoot context depth) = some one)
    (second : roots.mapM (records.evaluateRoot context deeper) = some other) : one = other := by
  rw [FieldValue.mapM_eq_some_iff] at first second
  induction first generalizing other with
  | nil =>
      cases second
      rfl
  | cons found _ inductionHypothesis =>
      cases second with
      | cons foundToo rest =>
          rw [evaluateRoot_unique found foundToo, inductionHypothesis rest]

theorem evaluates_of_evaluateRoot {root : Root} {depth : Nat} {tree : Entity}
    (found : records.evaluateRoot context depth root = some tree) :
    records.Absent context root.key root.selector ∨
      ∃ depth, records.Evaluates context depth root.key root.selector := by
  unfold Records.evaluateRoot at found
  by_cases absent : records.Absent context root.key root.selector
  · exact .inl absent
  · rw [if_neg absent] at found
    exact .inr ⟨depth, tree, found⟩

theorem yields_trees_iff {trees : List Entity} :
    Yields context (Session.trees handles) before trees after ↔
      trees = handles.map (before.materialize context.catalog.schema) ∧ after = before := by
  induction handles generalizing trees with
  | nil => exact yields_pure_iff
  | cons entity rest inductionHypothesis =>
      simp only [Session.trees, Session.tree, yields_bind_iff, yields_get_iff, yields_schema_iff,
        yields_pure_iff]
      constructor
      · rintro ⟨_, _, ⟨_, _, ⟨rfl, rfl⟩, _, _, ⟨rfl, rfl⟩, rfl, rfl⟩, others, _,
          remaining, rfl, rfl⟩
        obtain ⟨rfl, rfl⟩ := inductionHypothesis.mp remaining
        exact ⟨rfl, rfl⟩
      · rintro ⟨rfl, rfl⟩
        exact ⟨_, _, ⟨_, _, ⟨rfl, rfl⟩, _, _, ⟨rfl, rfl⟩, rfl, rfl⟩, _, _,
          inductionHypothesis.mpr ⟨rfl, rfl⟩, rfl, rfl⟩

theorem resolveWithin_eq {placed : RunState} (limit : Nat)
    (done : Yields context (spawnWeak roots) { calls := earlier } handles placed)
    (prepared : Yields context prepare placed () ready) :
    resolveWithin limit roots context { calls := earlier } =
      (conclude limit >>= fun _ => Session.trees handles) context ready := by
  rw [resolveWithin, Session.stepsWithin, done.bind]
  have split : executeWithin limit = prepare >>= fun _ => conclude limit := rfl
  rw [split, bind_assoc, prepared.bind]

theorem exists_alike (sound : Sound (records.truth context) [] state) (ranked : Ranked state.arena)
    (spawned : List.Forall₂ (fun root entity => root.origin entity ∈ state.origins) roots handles) :
    ∃ expected, roots.mapM (records.evaluateRoot context state.arena.size) = some expected ∧
      List.Forall₂ Entity.Alike (handles.map (state.materialize context.catalog.schema))
        expected := by
  simp only [FieldValue.mapM_eq_some_iff]
  induction spawned with
  | nil => exact ⟨[], .nil, .nil⟩
  | cons member _ inductionHypothesis =>
      obtain ⟨tree, evaluated, alike⟩ := sound.alike_root ranked member
      obtain ⟨trees, evaluatedRest, alikeRest⟩ := inductionHypothesis
      exact ⟨tree :: trees, .cons evaluated evaluatedRest, .cons alike alikeRest⟩

namespace Ready

theorem alike (served : Served context records)
    (isReady : Ready (records.truth context) roots handles ready) {limit : Nat}
    {trees : List Entity}
    (done : Yields context (conclude limit >>= fun _ => Session.trees handles) ready trees after) :
    ∃ depth expected, roots.mapM (records.evaluateRoot context depth) = some expected ∧
      List.Forall₂ Entity.Alike trees expected := by
  obtain ⟨stats, ended, concluded, listed⟩ := yields_bind_iff.mp done
  obtain ⟨final, rounds, _, rfl⟩ := yields_conclude_iff.mp concluded
  obtain ⟨rfl, _⟩ := yields_trees_iff.mp listed
  obtain ⟨steady, keeps, empty⟩ := isReady.steady.rounds served.faithful rounds
  have tracked := (tracked_rounds limit isReady.tracked).yields rounds
  have sound : Sound (records.truth context) [] final := by
    have whole := steady.sound
    rwa [RunState.pooled, empty rfl] at whole
  let cleared : RunState := { final with cache := [] }
  have same : cleared.materialize context.catalog.schema =
      final.materialize context.catalog.schema :=
    funext fun entity => RunState.materialize_congr entity rfl
  obtain ⟨expected, evaluated, alike⟩ := exists_alike sound tracked.ranked.now
    (isReady.spawned.imp fun root entity member => keeps.origins _ member)
  exact ⟨_, expected, evaluated, same ▸ alike⟩

theorem roundsEnd (served : Served context records)
    (isReady : Ready (records.truth context) roots handles ready)
    (ends : ∀ root ∈ roots, records.Ends context root.key root.selector) :
    RoundsEnd context ready := by
  apply (served.ranking inherits_true).roundsEnd
  refine ⟨isReady.steady.none, isReady.steady.classed, ?_⟩
  intro target member
  obtain ⟨root, inRoots, _, key, selector⟩ := isReady.waits target member
  refine ⟨isReady.steady.sound.wellFormed member, ?_, trivial⟩
  rw [key, selector]
  exact ends root inRoots

/-- Rounds do not fail if evaluation does not fail for any root. -/
theorem hopeful (isReady : Ready (records.truth context) roots handles ready)
    (evaluates : ∀ root ∈ roots, records.Absent context root.key root.selector ∨
      ∃ depth, records.Evaluates context depth root.key root.selector) :
    Hopeful records context handles ready := by
  refine ⟨isReady.steady, isReady.lively, ?_, ?_⟩
  · intro entity inHandles
    obtain ⟨root, _, member⟩ := FieldValue.exists_related isReady.spawned.flip inHandles
    exact ⟨_, member, rfl, rfl⟩
  · intro target member
    obtain ⟨root, inRoots, inHandles, key, selector⟩ := isReady.waits target member
    unfold Promising
    rw [key, selector]
    rcases evaluates root inRoots with absent | evaluated
    · exact .inr ⟨inHandles, absent⟩
    · exact .inl evaluated

/-- If evaluation succeeds, so does the run, given enough rounds, and with the same trees. -/
theorem exists_enough (served : Served context records)
    (isReady : Ready (records.truth context) roots handles ready) {depth : Nat}
    {expected : List Entity}
    (evaluated : roots.mapM (records.evaluateRoot context depth) = some expected) :
    ∃ enough, ∀ limit, enough ≤ limit → ∃ trees ended,
      Yields context (conclude limit >>= fun _ => Session.trees handles) ready trees ended ∧
        List.Forall₂ Entity.Alike trees expected := by
  have each : ∀ root ∈ roots, records.Absent context root.key root.selector ∨
      ∃ depth, records.Evaluates context depth root.key root.selector := by
    intro root inRoots
    obtain ⟨tree, _, found⟩ :=
      FieldValue.exists_related (FieldValue.mapM_eq_some_iff.mp evaluated) inRoots
    exact evaluates_of_evaluateRoot found
  have ends : ∀ root ∈ roots, records.Ends context root.key root.selector := by
    intro root inRoots
    rcases each root inRoots with absent | ⟨depth, evaluates⟩
    · exact ⟨1, absent.unfolds⟩
    · exact ⟨depth, evaluates.unfolds⟩
  obtain ⟨enough, final, _, stable⟩ :=
    yields_rounds_of_roundsEnd (isReady.roundsEnd served ends)
      (fun hopeful waiting => hopeful.exists_round served waiting) (isReady.hopeful each)
  refine ⟨enough, ?_⟩
  intro limit more
  let ended : RunState := { final with cache := [] }
  have concluded : Yields context (conclude limit) ready final.stats ended :=
    yields_conclude_iff.mpr ⟨final, stable limit more, rfl, rfl⟩
  have listed : Yields context (Session.trees handles) ended
      (handles.map (ended.materialize context.catalog.schema)) ended :=
    yields_trees_iff.mpr ⟨rfl, rfl⟩
  have done : Yields context (conclude limit >>= fun _ => Session.trees handles) ready _ ended :=
    yields_bind_iff.mpr ⟨_, _, concluded, listed⟩
  obtain ⟨deeper, expectedToo, evaluatedToo, alike⟩ := isReady.alike served done
  rw [evaluateRoots_unique evaluated evaluatedToo]
  exact ⟨_, _, done, alike⟩

/-- If the references come to an end, more than enough rounds change nothing. -/
theorem stops (served : Served context records)
    (isReady : Ready (records.truth context) roots handles ready)
    (ends : ∀ root ∈ roots, records.Ends context root.key root.selector) :
    ∃ enough, ∀ limit, enough ≤ limit →
      (conclude limit >>= fun _ => Session.trees handles) context ready =
        (conclude enough >>= fun _ => Session.trees handles) context ready := by
  obtain ⟨enough, final, stable⟩ := isReady.roundsEnd served ends
  refine ⟨enough, ?_⟩
  intro limit more
  simp only [bind, ReaderT.bind, EStateM.bind, conclude_congr (stable limit more) final]

end Ready

/-- A run over fixed records gives what direct evaluation gives, up to the order of fields. If it
succeeds, so does evaluation, with the same trees; if evaluation succeeds, so does the run, given
enough rounds; and if the references come to an end, the run does, whether it succeeds or not. -/
theorem refines_evaluation (context : RunContext) (records : Records) (roots : List Root)
    (earlier : List Call) (served : Served context records)
    (distinct : ∀ root ∈ roots, root.selector.Distinct) :
    (∀ limit trees ended,
      Yields context (resolveWithin limit roots) { calls := earlier } trees ended →
      ∃ depth expected, roots.mapM (records.evaluateRoot context depth) = some expected ∧
        List.Forall₂ Entity.Alike trees expected) ∧
    (∀ depth expected, roots.mapM (records.evaluateRoot context depth) = some expected →
      ∃ enough, ∀ limit, enough ≤ limit → ∃ trees ended,
        Yields context (resolveWithin limit roots) { calls := earlier } trees ended ∧
          List.Forall₂ Entity.Alike trees expected) ∧
    ((∀ root ∈ roots, records.Ends context root.key root.selector) →
      ∃ enough, ∀ limit, enough ≤ limit →
        resolveWithin limit roots context { calls := earlier } =
          resolveWithin enough roots context { calls := earlier }) := by
  obtain ⟨handles, placed, ready, done, prepared, isReady⟩ :=
    exists_ready (records.truth context) earlier distinct
  have whole (limit : Nat) := resolveWithin_eq limit done prepared
  refine ⟨fun limit trees ended resolved => ?_, fun depth expected evaluated => ?_, fun ends => ?_⟩
  · rw [Yields, whole] at resolved
    exact isReady.alike served resolved
  · obtain ⟨enough, succeeds⟩ := isReady.exists_enough served evaluated
    refine ⟨enough, fun limit more => ?_⟩
    obtain ⟨trees, ended, resolved, alike⟩ := succeeds limit more
    exact ⟨trees, ended, (whole limit).trans resolved, alike⟩
  · obtain ⟨enough, same⟩ := isReady.stops served ends
    refine ⟨enough, fun limit more => ?_⟩
    rw [whole, whole]
    exact same limit more

end Run

namespace Units

open Run

/-- The records of two units, the first of which is the parent of the second. -/
def lineRecords : Records where
  find? key :=
    if key.1 = cls then (OrderedMap.get? line key.2).map fun parent => [("parent_id", parent)]
    else none
  distinct := by
    intro key members name inner found member
    split at found
    · obtain ⟨parent, known, rfl⟩ := Option.map_eq_some_iff.mp found
      cases List.mem_singleton.mp member
      have listed := OrderedMap.mem_of_get? known
      simp [line] at listed
    · cases found

theorem served_line : Served (context line) lineRecords where
  plain known member := by
    cases List.mem_singleton.mp member
    exact ⟨⟨"unit_id", rfl⟩, rfl⟩
  agrees := by
    intro _ first member second memberToo name one other found foundToo
    cases List.mem_singleton.mp (List.mem_of_mem_filter member)
    cases List.mem_singleton.mp (List.mem_of_mem_filter memberToo)
    exact Option.some.inj (found.symm.trans foundToo)
  answered known member := by
    cases List.mem_singleton.mp member
    intro id level params earlier sent
    cases sent
    have asked : OrderedMap.get? [("unit_id", id)] "unit_id" = some id := rfl
    change Except.ok (((OrderedMap.get? [("unit_id", id)] "unit_id").bind
      (OrderedMap.get? line)).elim .null record) = _
    rw [asked]
    cases found : OrderedMap.get? line id with
    | none => simp [lineRecords, getter, found]
    | some parent => simp [lineRecords, getter, found, record]

/-- What two rounds find of a unit and its ancestors is what evaluation gives. -/
theorem refines_line : ∃ trees ended,
    Yields (context line) (resolveWithin 2 [⟨(cls, "2"), ancestors⟩]) { calls := [] } trees ended ∧
    ∃ depth expected,
      [⟨(cls, "2"), ancestors⟩].mapM (lineRecords.evaluateRoot (context line) depth) =
        some expected ∧ List.Forall₂ Entity.Alike trees expected := by
  have distinct : ∀ root ∈ ([⟨(cls, "2"), ancestors⟩] : List Root), root.selector.Distinct := by
    intro root member
    cases List.mem_singleton.mp member
    simp [ancestors, Selector.Distinct, Selector.names]
  exact ⟨_, _, rfl,
    (refines_evaluation (context line) lineRecords _ [] served_line distinct).1 2 _ _ rfl⟩

end Units

end EntityResolver
