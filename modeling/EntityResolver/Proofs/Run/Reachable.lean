import EntityResolver.Proofs.Run.Invariant

/-!
Reachable states of a run.

A run is begun for demands, is prepared, and goes on in rounds that count, serve, fill and sweep. It
may fail at any step, and may be taken up again after that. On the way each pool stays the only one
of its class, holds active targets of this class only, and is never empty; and all targets that wait
are wishes for fields of entities of their own.
-/

set_option autoImplicit false

namespace EntityResolver

namespace Target

variable {targets fewer : List Target} {target : Target} {size larger : Nat}

structure Own (targets : List Target) (size : Nat) : Prop where
  wellFormed : ∀ target ∈ targets, target.WellFormed
  inside : ∀ target ∈ targets, target.entity.index < size
  apart : (targets.map Target.entity).Nodup

theorem Own.grow (own : Own targets size) (more : size ≤ larger) : Own targets larger :=
  ⟨own.wellFormed, fun target member => (own.inside target member).trans_le more, own.apart⟩

theorem Own.subperm (own : Own targets size) (part : fewer.Subperm targets) : Own fewer size := by
  obtain ⟨picked, perm, sublist⟩ := part
  have inside (target : Target) (member : target ∈ fewer) : target ∈ targets :=
    sublist.subset (perm.mem_iff.mpr member)
  refine ⟨fun target member => own.wellFormed target (inside target member),
    fun target member => own.inside target (inside target member), ?_⟩
  exact (perm.map Target.entity).nodup_iff.mp ((sublist.map Target.entity).nodup own.apart)

theorem map_entity_continues {olds news : List Target}
    (pairs : List.Forall₂ Continues olds news) :
    news.map Target.entity = olds.map Target.entity := by
  induction pairs with
  | nil => rfl
  | cons pair _ inductionHypothesis =>
      rw [List.map_cons, List.map_cons, pair.entity, inductionHypothesis]

theorem Own.continues {olds news : List Target} (own : Own olds size)
    (pairs : List.Forall₂ Continues olds news) : Own news size where
  wellFormed := forall_continues pairs (fun pair valid => valid.continues pair) own.wellFormed
  inside := forall_continues pairs (fun pair inside => pair.entity ▸ inside) own.inside
  apart := map_entity_continues pairs ▸ own.apart

theorem Own.snoc (own : Own targets size) (valid : target.WellFormed)
    (newest : target.entity = ⟨size⟩) : Own (targets ++ [target]) (size + 1) := by
  have grown := own.grow (Nat.le_succ size)
  refine ⟨?_, ?_, ?_⟩
  · exact List.forall_mem_append.mpr ⟨own.wellFormed, by simpa using valid⟩
  · exact List.forall_mem_append.mpr ⟨grown.inside, by simp [newest]⟩
  · rw [List.map_append, List.nodup_append_comm]
    refine List.nodup_cons.mpr ⟨fun again => ?_, own.apart⟩
    obtain ⟨old, member, same⟩ := List.mem_map.mp again
    have older := own.inside old member
    rw [same, newest] at older
    exact Nat.lt_irrefl size older

theorem Own.eq_of_entity {other : Target} (own : Own targets size) (member : target ∈ targets)
    (memberToo : other ∈ targets) (same : target.entity = other.entity) : target = other :=
  List.inj_on_of_nodup_map own.apart member memberToo same

end Target

namespace RunState

variable {held : List Target} {before middle after : RunState}

structure Grows (before after : RunState) : Prop where
  size : before.arena.size ≤ after.arena.size
  old : ∀ index < before.arena.size, after.arena[index]? = before.arena[index]?

theorem Grows.refl (state : RunState) : state.Grows state :=
  ⟨Nat.le_refl _, fun _ _ => rfl⟩

theorem Grows.trans (first : before.Grows middle) (second : middle.Grows after) :
    before.Grows after :=
  ⟨first.size.trans second.size, fun index inside =>
    (second.old index (inside.trans_le first.size)).trans (first.old index inside)⟩

theorem Grows.congr {ended : RunState} (grows : before.Grows after)
    (same : ended.arena = after.arena) : before.Grows ended :=
  ⟨same ▸ grows.size, fun index inside => same ▸ grows.old index inside⟩

theorem size_allocated (state : RunState) (record : EntityRecord) :
    (state.allocated record).arena.size = state.arena.size + 1 :=
  Array.size_push _

theorem grows_allocated (state : RunState) (record : EntityRecord) :
    state.Grows (state.allocated record) := by
  refine ⟨?_, fun index inside => ?_⟩
  · rw [size_allocated]
    exact Nat.le_succ _
  · exact (Array.getElem?_push_lt inside).trans (Array.getElem?_eq_getElem inside).symm

structure Tidy (held : List Target) (state : RunState) : Prop where
  classes : (state.pools.map Prod.fst).Nodup
  classed : Classed state.pools
  lively : Lively state.pools
  own : Target.Own (held ++ state.waiting) state.arena.size
  distinct : ∀ prerequisite ∈ state.prerequisites, prerequisite.selector.Distinct

theorem Tidy.congr (tidy : before.Tidy held) (pools : after.pools = before.pools)
    (spawned : after.spawned = before.spawned) (size : before.arena.size ≤ after.arena.size)
    (prerequisites : after.prerequisites = before.prerequisites) : after.Tidy held where
  classes := pools ▸ tidy.classes
  classed := pools ▸ tidy.classed
  lively := pools ▸ tidy.lively
  own := by
    rw [waiting, pooled, pools, spawned]
    exact tidy.own.grow size
  distinct := prerequisites ▸ tidy.distinct

theorem Tidy.quiet (tidy : before.Tidy held) (quiet : before.Quiet after)
    (size : before.arena.size ≤ after.arena.size) : after.Tidy held := by
  obtain ⟨_, _, _, _, rfl⟩ := quiet
  exact tidy.congr rfl rfl size rfl

/-- The targets that were held may be let go. -/
theorem Tidy.release (tidy : before.Tidy held) : before.Tidy [] :=
  { tidy with own := tidy.own.subperm (List.sublist_append_right _ _).subperm }

end RunState

namespace Run

variable {context : RunContext} {before after : RunState} {held : List Target}

theorem grows_spawn {cls : ClassId} {id : String} {selector : Selector} {values : FieldValues}
    {isWeak : Bool} {target : Target} {resolved : RunState}
    (given : Yields context
      (resolveGiven values selector.names (before.next cls id selector isWeak).wish)
      (before.begun (before.next cls id selector isWeak)) target resolved) :
    resolved.arena.size = before.arena.size + 1 ∧ before.Grows resolved := by
  let begins (state : RunState) : Prop :=
    state.arena.size = before.arena.size + 1 ∧ before.Grows state
  have started : begins (before.begun (before.next cls id selector isWeak)) :=
    ⟨before.size_allocated _, (before.grows_allocated _).congr rfl⟩
  refine invariant_resolveGiven ?_ started given
  intro state other name value continues _ _ ⟨size, grows⟩
  have own : other.entity.index = before.arena.size := congrArg Handle.index continues.entity
  have sizeToo : (state.learned context.catalog.schema other name value).arena.size =
      state.arena.size := by
    rw [RunState.arena_learned, Array.size_modify]
  refine ⟨sizeToo.trans size, grows.size.trans sizeToo.ge, fun index inside => ?_⟩
  rw [RunState.arena_learned, Array.getElem?_modify, if_neg (by omega)]
  exact grows.old index inside

theorem tidy_spawn {cls : ClassId} {id : String} {selector : Selector} {values : FieldValues}
    {isWeak : Bool} {entity : Handle} (tidy : before.Tidy held) (distinct : selector.Distinct)
    (done : Yields context (spawn cls id selector values isWeak) before entity after) :
    after.Tidy held ∧ before.Grows after := by
  obtain ⟨rfl, target, resolved, given, rfl⟩ := yields_spawn_iff.mp done
  obtain ⟨size, grows⟩ := grows_spawn given
  obtain ⟨continues, arena, events, cache, stats, rfl⟩ := quiet_resolveGiven given
  have fresh : (before.next cls id selector isWeak).wish.WellFormed :=
    ⟨distinct, distinct.nodup, List.Subset.refl _⟩
  have own := tidy.own.snoc (fresh.continues continues) continues.entity
  refine ⟨⟨tidy.classes, tidy.classed, tidy.lively, ?_, tidy.distinct⟩, grows.congr rfl⟩
  rw [← size] at own
  refine own.subperm (List.Sublist.subperm ?_)
  change (held ++ (before.pooled ++ (before.spawned ++ [target].filter Target.isActive))).Sublist _
  rw [← List.append_assoc before.pooled, ← List.append_assoc]
  exact List.filter_sublist.append_left _

/-- Spawning keeps a run tidy, and leaves the old entities alone. -/
def tidying (context : RunContext) (held : List Target) : Discipline context where
  embeds := True
  given _ _ _ := True
  admits _ := Selector.Distinct
  invariant := RunState.Tidy held
  leads := RunState.Grows
  serves _ _ _ _ := True
  knows _ _ := True
  refl := .refl
  trans := .trans
  keeps _ serve := serve
  known _ := trivial
  remains _ known := known
  below distinct selected _ := distinct.of_mem_resolved selected
  spawns tidy distinct _ _ done := by
    obtain ⟨spawned, grows⟩ := tidy_spawn tidy distinct done
    exact ⟨spawned, grows, trivial⟩
  roots tidy distinct _ done := tidy_spawn tidy distinct done
  frame {state} _ _ _ tidy _ :=
    ⟨tidy.congr rfl rfl (Nat.le_refl _) rfl, (RunState.Grows.refl state).congr rfl⟩
  shelves := by
    intro before after cls id sub values entity tidy _ done
    obtain ⟨_, rfl⟩ := yields_alloc_iff.mp done
    have grows := before.grows_allocated ⟨cls, some id, values⟩
    exact ⟨tidy.congr rfl rfl grows.size rfl, grows, trivial⟩

theorem lively_append {pools others : List (ClassId × List Target)}
    (lively : RunState.Lively pools) (livelyToo : RunState.Lively others) :
    RunState.Lively (pools ++ others) := fun cls pool member =>
  (List.mem_append.mp member).elim (lively cls pool) (livelyToo cls pool)

theorem classes_prune_sublist (pools : List (ClassId × List Target)) :
    ((prune pools).map Prod.fst).Sublist (pools.map Prod.fst) := by
  refine (List.filter_sublist.map Prod.fst).trans ?_
  rw [List.map_map]
  exact .refl _

theorem classes_addToPool (target : Target) (pools : List (ClassId × List Target)) :
    (addToPool target pools).map Prod.fst =
      if target.cls ∈ pools.map Prod.fst then pools.map Prod.fst
      else pools.map Prod.fst ++ [target.cls] := by
  induction pools with
  | nil => simp [addToPool]
  | cons entry rest inductionHypothesis =>
      obtain ⟨cls, pool⟩ := entry
      rw [addToPool]
      by_cases same : cls = target.cls
      · simp [same]
      · rw [if_neg same, List.map_cons, inductionHypothesis]
        by_cases listed : target.cls ∈ rest.map Prod.fst <;> simp [listed, Ne.symm same]

theorem nodup_addToPool {target : Target} {pools : List (ClassId × List Target)}
    (classes : (pools.map Prod.fst).Nodup) : ((addToPool target pools).map Prod.fst).Nodup := by
  rw [classes_addToPool]
  split
  · exact classes
  · rename_i fresh
    exact List.nodup_append_comm.mp (List.nodup_cons.mpr ⟨fresh, classes⟩)

theorem tidy_filled (tidy : before.Tidy held) : before.filled.Tidy held where
  classes := by
    have fold (targets : List Target) {pools : List (ClassId × List Target)}
        (classes : (pools.map Prod.fst).Nodup) :
        ((targets.foldl (fun pools target => addToPool target pools) pools).map
          Prod.fst).Nodup := by
      induction targets generalizing pools with
      | nil => exact classes
      | cons target rest inductionHypothesis =>
          exact inductionHypothesis (nodup_addToPool classes)
    exact fold _ tidy.classes
  classed := classed_filled tidy.classed
  lively := lively_filled tidy.lively
  own := by
    refine tidy.own.subperm ?_
    have moved : before.filled.waiting.Perm
        (before.pooled ++ before.spawned.filter Target.isActive) := by
      rw [RunState.waiting, RunState.filled, List.append_nil]
      exact perm_filled before
    refine (moved.append_left held).subperm.trans (List.Sublist.subperm ?_)
    exact (List.filter_sublist.append_left _).append_left _
  distinct := tidy.distinct

/-- A pool that was held comes back to the end, less what is done. -/
theorem tidy_settled {cls : ClassId} {pool settled : List Target} (tidy : before.Tidy pool)
    (fresh : cls ∉ before.pools.map Prod.fst) (all : ∀ target ∈ pool, target.cls = cls)
    (pairs : List.Forall₂ Target.Continues pool settled) :
    ({ before with pools := before.pools ++ prune [(cls, settled)] } : RunState).Tidy [] where
  classes := by
    have pruned := classes_prune_sublist [(cls, settled)]
    rw [List.map_append]
    refine (pruned.append_left _).nodup ?_
    exact List.nodup_append_comm.mp (List.nodup_cons.mpr ⟨fresh, tidy.classes⟩)
  classed := classed_settled tidy.classed pairs all
  lively := lively_append tidy.lively (lively_prune _)
  own := by
    have same : List.Forall₂ Target.Continues before.waiting before.waiting :=
      List.forall₂_same.mpr fun target _ => .refl target
    refine (tidy.own.continues (List.rel_append pairs same)).subperm ?_
    have left : (prune [(cls, settled)]).flatMap Prod.snd = settled.filter Target.isActive := by
      rw [flatMap_prune, List.flatMap_cons, List.flatMap_nil, List.append_nil]
    have ordered : (before.pooled ++ settled.filter Target.isActive ++ before.spawned).Perm
        (settled.filter Target.isActive ++ before.waiting) := by
      rw [RunState.waiting, ← List.append_assoc]
      exact List.perm_append_comm.append_right _
    change ((before.pools ++ prune [(cls, settled)]).flatMap Prod.snd ++ before.spawned).Subperm _
    rw [List.flatMap_append, left]
    exact ordered.subperm.trans (List.filter_sublist.append_right _).subperm
  distinct := tidy.distinct

theorem settles_tidy (names : List String) (results : FetchResults) (target : Target) :
    Settles context (RunState.Tidy held) names results target where
  stores {state continued values name value} _ _ _ _ _ tidy := by
    have size : (state.learned context.catalog.schema continued name value).arena.size =
        state.arena.size := by
      rw [RunState.arena_learned, Array.size_modify]
    exact tidy.quiet ((RunState.quiet_kept _ _ _ _ _).trans (RunState.quiet_stored _ _ _ _ _))
      size.ge
  forgets {state} tidy := by
    have size : (state.forgotten target).arena.size = state.arena.size := Array.size_modify
    exact tidy.quiet ⟨_, _, _, _, rfl⟩ size.ge

theorem tidy_held {cls : ClassId} {pool : List Target} {others : List (ClassId × List Target)}
    (tidy : before.Tidy []) (first : before.pools = (cls, pool) :: others) :
    ({ before with pools := others } : RunState).Tidy pool ∧ cls ∉ others.map Prod.fst ∧
      ∀ target ∈ pool, target.cls = cls := by
  obtain ⟨classes, classed, lively, own, distinct⟩ := tidy
  rw [first, List.map_cons] at classes
  rw [first] at classed lively
  rw [RunState.waiting, RunState.pooled_of_first first, List.append_assoc] at own
  obtain ⟨fresh, classes⟩ := List.nodup_cons.mp classes
  refine ⟨⟨classes, ?_, ?_, own, distinct⟩, fresh, classed cls pool List.mem_cons_self⟩
  · exact fun cls pool member => classed cls pool (List.mem_cons_of_mem _ member)
  · exact fun cls pool member => lively cls pool (List.mem_cons_of_mem _ member)

/-- What a fetch for the first pool does: it leaves the pools and the old entities alone. -/
theorem tidy_fetched {cls : ClassId} {pool : List Target} {others : List (ClassId × List Target)}
    {getter : Getter} {candidacy : Candidacy} (tidy : before.Tidy [])
    (first : before.pools = (cls, pool) :: others)
    (offered : getter.candidacy? pool = some candidacy) :
    Meets context (getter.fetch candidacy) { before with pools := others }
      (fun _ fetched => fetched.Tidy pool ∧ fetched.pools = others ∧
        before.spawned <+: fetched.spawned ∧ before.Grows fetched)
      (fun failed => failed.Tidy pool) := by
  obtain ⟨heldTidy, _, _⟩ := tidy_held tidy first
  have wellFormed (target : Target) (member : target ∈ pool) : target.WellFormed :=
    heldTidy.own.wellFormed target (List.mem_append_left _ member)
  obtain ⟨leader, serves⟩ := Getter.candidacy_serves wellFormed offered
  have admitted : (tidying context pool).AdmitsBelow getter.cls candidacy.selector :=
    admitsBelow_of_serves serves (wellFormed leader serves.first_mem) fun _ distinct _ _ => distinct
  have kept : (appending context).Fetches getter.cls candidacy.selector (getter.fetch candidacy) :=
    Discipline.fetch (.inr trivial) candidacy fun _ _ _ _ _ => trivial
  refine Meets.mono (Meets.andYields (Discipline.fetch (.inr trivial) candidacy admitted heldTidy))
    ?_ fun failed reached => reached.valid
  rintro results fetched ⟨⟨reached, _⟩, done⟩
  obtain ⟨pools, _, spawned⟩ := ((kept trivial).yields done).1.later
  exact ⟨reached.valid, pools, spawned, reached.later.size, reached.later.old⟩

theorem tidy_serveFirst (tidy : before.Tidy []) :
    Meets context serveFirst before (fun _ => RunState.Tidy []) (RunState.Tidy []) := by
  cases first : before.pools with
  | nil =>
      have nothing : Yields context serveFirst before () before := by
        simp [serveFirst, yields_bind_iff, first]
      exact nothing.meets tidy
  | cons entry others =>
      obtain ⟨cls, pool⟩ := entry
      obtain ⟨heldTidy, fresh, all⟩ := tidy_held tidy first
      refine meets_serveFirst first heldTidy.release fun getter candidacy best => ?_
      refine (tidy_fetched tidy first (mem_of_bestCandidacy best).2).mono ?_
        fun failed tidy => tidy.release
      rintro results fetched ⟨tidyFetched, pools, _⟩
      have settles : Meets context
          (settleChosen getter.path candidacy.selector.names results candidacy.chosen 0 pool)
          fetched (fun settled last => List.Forall₂ Target.Continues pool settled ∧ last.Tidy pool)
          (RunState.Tidy pool) :=
        meets_settleChosen (fun target _ => settles_tidy _ results target) tidyFetched
      refine settles.andYields.mono ?_ fun failed tidy => tidy.release
      rintro settled last ⟨⟨pairs, tidyLast⟩, done⟩
      have nodup (target : Target) (member : target ∈ pool) : target.unresolved.Nodup :=
        (heldTidy.own.wellFormed target (List.mem_append_left _ member)).nodup
      obtain ⟨_, quiet, _⟩ := quiet_settleChosen nodup done
      have kept : last.pools = others := by
        obtain ⟨_, _, _, _, rfl⟩ := quiet
        exact pools
      exact tidy_settled tidyLast (kept ▸ fresh) all pairs

theorem size_sweepPools {pools swept : List (ClassId × List Target)}
    (sweeps : Yields context (sweepPools pools) before swept after) :
    before.arena.size ≤ after.arena.size := by
  let grown (state : RunState) : Prop := before.arena.size ≤ state.arena.size
  have started : grown before := Nat.le_refl _
  refine invariant_sweepPools (fun target _ => ?_) started sweeps
  intro _ state restored continued name field kept value _ _ _ _ reached traversed
  have grown := (yields_traverseEntities (fun _ => True)
    (fun one other => one.arena.size ≤ other.arena.size) (fun _ _ _ => True)
    (fun _ => Nat.le_refl _) Nat.le_trans (fun _ found => found) (fun _ _ done => by
      obtain ⟨_, rfl⟩ := yields_alloc_iff.mp done
      exact ⟨trivial, (RunState.grows_allocated _ _).size, trivial⟩) trivial traversed).2.1
  exact (reached.trans grown).trans_eq Array.size_modify.symm

theorem classes_continues {pools swept : List (ClassId × List Target)}
    (pairs : List.Forall₂ (fun old new =>
      new.1 = old.1 ∧ List.Forall₂ Target.Continues old.2 new.2) pools swept) :
    swept.map Prod.fst = pools.map Prod.fst := by
  induction pairs with
  | nil => rfl
  | cons pair _ inductionHypothesis =>
      rw [List.map_cons, List.map_cons, pair.1, inductionHypothesis]

theorem tidy_sweep (tidy : before.Tidy []) :
    Meets context sweep before (fun _ => RunState.Tidy []) (RunState.Tidy []) := by
  obtain ⟨swept, last, sweeps⟩ : Succeeds context (sweepPools before.pools) before :=
    succeeds_sweepPools _ _
  obtain ⟨pairs, quiet⟩ := quiet_sweepPools sweeps
  have size := size_sweepPools sweeps
  have done : Yields context sweep before () { last with pools := prune swept } := by
    simp only [sweep, yields_bind_iff, yields_get_iff, yields_modify_iff]
    exact ⟨_, _, ⟨rfl, rfl⟩, swept, last, sweeps, rfl⟩
  obtain ⟨arena, events, cache, stats, rfl⟩ := quiet
  refine done.meets ⟨?_, classed_prune (classed_sweepPools pairs tidy.classed), lively_prune swept,
    ?_, tidy.distinct⟩
  · exact (classes_prune_sublist swept).nodup (classes_continues pairs ▸ tidy.classes)
  · have same : List.Forall₂ Target.Continues before.spawned before.spawned :=
      List.forall₂_same.mpr fun target _ => .refl target
    have own := tidy.own.continues (List.rel_append (flatMap_continues pairs) same)
    refine (own.grow size).subperm (List.Sublist.subperm ?_)
    change ((prune swept).flatMap Prod.snd ++ before.spawned).Sublist _
    rw [flatMap_prune]
    exact List.filter_sublist.append_right _

/-- What can be done with a run. Executing it is to prepare it, to count, serve, fill and sweep in
each round, and to finish. -/
inductive Operation where
  | place (demand : Demand)
  | call (path : String) (params : Params)
  | alloc (cls : ClassId) (id : Option String) (values : FieldValues)
  | takeOutput (slot : Nat)
  | prepare
  | count
  | serve
  | fill
  | sweep
  | finish

/-- No name occurs twice in what is selected. -/
def Operation.Allowed : Operation → Prop
  | .place demand => demand.selector.Distinct
  | _ => True

def Operation.step : Operation → Run Unit
  | .place demand => demand.place
  | .call path params => do let _ ← Run.call path params
  | .alloc cls id values => do let _ ← Run.alloc cls id values
  | .takeOutput slot => do let _ ← Run.takeOutput slot
  | .prepare => Run.prepare
  | .count => modify RunState.counted
  | .serve => serveFirst
  | .fill => poolSpawned
  | .sweep => Run.sweep
  | .finish => modify fun state => { state with cache := [] }

/-- Some operations, each of which may have failed, lead to the state. The remote may have been
called before. -/
inductive Reachable (context : RunContext) : RunState → Prop where
  | start (calls : List Call) : Reachable context { calls := calls }
  | step {operation : Operation} {before after : RunState} (reached : Reachable context before)
      (allowed : operation.Allowed) (leaves : Leaves context operation.step before after) :
      Reachable context after

theorem tidy_place {demand : Demand} (tidy : before.Tidy []) (distinct : demand.selector.Distinct) :
    Meets context demand.place before (fun _ => RunState.Tidy []) (RunState.Tidy []) := by
  have wants {prerequisite : Prerequisite} (selected : prerequisite.selector = demand.selector) :
      ∀ other ∈ before.prerequisites ++ [prerequisite], other.selector.Distinct :=
    List.forall_mem_append.mpr ⟨tidy.distinct, by simpa [selected] using distinct⟩
  cases demand with
  | entity cls id selector values isWeak =>
      obtain ⟨entity, after, spawns⟩ :
          Succeeds context (spawn cls id selector values isWeak) before :=
        succeeds_spawn _ _ _ _ _ _
      have done : Yields context (Demand.place (.entity cls id selector values isWeak)) before ()
          after := yields_bind_iff.mpr ⟨_, _, spawns, yields_pure_iff.mpr ⟨rfl, rfl⟩⟩
      exact done.meets (tidy_spawn tidy distinct spawns).1
  | list cls domain selector =>
      have done : Yields context (Demand.place (.list cls domain selector)) before () _ := rfl
      exact done.meets { tidy with distinct := wants rfl }
  | search cls query selector =>
      have done : Yields context (Demand.place (.search cls query selector)) before () _ := rfl
      exact done.meets { tidy with distinct := wants rfl }
  | currentUser method selector =>
      have loads : (tidying context []).Finds method.cls selector (method.load selector)
          fun user => [user] := Discipline.currentUser_load trivial method distinct
      refine meets_bind_iff.mpr (Meets.mono (loads tidy) ?_ fun failed reached => reached.valid)
      rintro user after ⟨reached, _⟩
      exact (yields_pure_iff.mpr ⟨rfl, rfl⟩ : Yields context (pure ()) after _ after).meets
        reached.valid

theorem tidy_prepare (tidy : before.Tidy []) :
    Meets context prepare before (fun _ => RunState.Tidy []) (RunState.Tidy []) := by
  have emptied : ({ before with prerequisites := [] } : RunState).Tidy [] :=
    { tidy with distinct := by simp }
  change Meets context (satisfyAll before.prerequisites >>= fun _ => poolSpawned)
    { before with prerequisites := [] } _ _
  have satisfies : (tidying context []).Ensures { before with prerequisites := [] }
      (satisfyAll before.prerequisites) fun _ _ => True :=
    Discipline.satisfyAll trivial (fun prerequisite member _ _ => tidy.distinct prerequisite member)
      emptied
  refine meets_bind_iff.mpr (Meets.mono satisfies ?_ fun failed reached => reached.valid)
  rintro _ satisfied ⟨reached, _⟩
  exact (yields_poolSpawned_iff.mpr rfl : Yields context poolSpawned satisfied () _).meets
    (tidy_filled reached.valid)

/-- Every operation keeps a run tidy, also one that fails. -/
theorem Operation.tidy {operation : Operation} (allowed : operation.Allowed)
    (tidy : before.Tidy []) :
    Meets context operation.step before (fun _ => RunState.Tidy []) (RunState.Tidy []) := by
  have same {after : RunState} (done : Yields context operation.step before () after)
      (quiet : after.pools = before.pools ∧ after.spawned = before.spawned ∧
        after.prerequisites = before.prerequisites ∧ before.arena.size ≤ after.arena.size) :
      Meets context operation.step before (fun _ => RunState.Tidy []) (RunState.Tidy []) :=
    done.meets (tidy.congr quiet.1 quiet.2.1 quiet.2.2.2 quiet.2.2.1)
  cases operation with
  | place demand => exact tidy_place tidy allowed
  | call path params => exact same rfl ⟨rfl, rfl, rfl, Nat.le_refl _⟩
  | alloc cls id values =>
      exact same rfl ⟨rfl, rfl, rfl, (before.grows_allocated ⟨cls, id, values⟩).size⟩
  | takeOutput slot => exact same rfl ⟨rfl, rfl, rfl, Nat.le_refl _⟩
  | prepare => exact tidy_prepare tidy
  | count => exact same rfl ⟨rfl, rfl, rfl, Nat.le_refl _⟩
  | serve => exact tidy_serveFirst tidy
  | fill =>
      exact (yields_poolSpawned_iff.mpr rfl : Yields context poolSpawned before () _).meets
        (tidy_filled tidy)
  | sweep => exact tidy_sweep tidy
  | finish => exact same rfl ⟨rfl, rfl, rfl, Nat.le_refl _⟩

theorem Reachable.tidy (reached : Reachable context before) : before.Tidy [] := by
  induction reached with
  | start calls =>
      exact ⟨.nil, nofun, nofun, ⟨nofun, nofun, .nil⟩, nofun⟩
  | step _ allowed leaves inductionHypothesis =>
      exact (Operation.tidy allowed inductionHypothesis).of_leaves leaves

/-- Whether it fails or not, the step leads to a reachable state. -/
def Proceeds {α : Type} (context : RunContext) (step : Run α) (before : RunState) : Prop :=
  Meets context step before (fun _ => Reachable context) (Reachable context)

theorem Proceeds.yields {α : Type} {step : Run α} {result : α}
    (proceeds : Proceeds context step before) (done : Yields context step before result after) :
    Reachable context after :=
  (meets_iff.mp proceeds).1 result after done

theorem Proceeds.bind {α β : Type} {step : Run α} {next : α → Run β}
    (proceeds : Proceeds context step before)
    (rest : ∀ value middle, Reachable context middle → Proceeds context (next value) middle) :
    Proceeds context (step >>= next) before :=
  meets_bind_iff.mpr (Meets.mono proceeds rest fun _ failed => failed)

theorem Reachable.operation (reached : Reachable context before) (operation : Operation)
    (allowed : operation.Allowed) : Proceeds context operation.step before :=
  meets_iff.mpr ⟨fun _ _ done => reached.step allowed (.inl ⟨_, done⟩),
    fun _ _ failed => reached.step allowed (.inr ⟨_, failed⟩)⟩

theorem Reachable.placeAll {demands : List Demand} (reached : Reachable context before)
    (distinct : ∀ demand ∈ demands, demand.selector.Distinct) :
    Proceeds context (Demand.placeAll demands) before := by
  induction demands generalizing before with
  | nil => exact Yields.meets (yields_pure_iff.mpr ⟨rfl, rfl⟩) reached
  | cons demand rest inductionHypothesis =>
      obtain ⟨first, others⟩ := List.forall_mem_cons.mp distinct
      exact Proceeds.bind (reached.operation (.place demand) first)
        fun _ placed reached => inductionHypothesis reached others

/-- A run is ready for its first round in a reachable state. -/
theorem reachable_of_begun {demands : List Demand} {earlier : List Call}
    (distinct : ∀ demand ∈ demands, demand.selector.Distinct)
    (begun : Yields context (do Demand.placeAll demands; prepare) { calls := earlier } () after) :
    Reachable context after := by
  have proceeds : Proceeds context (do Demand.placeAll demands; prepare) { calls := earlier } :=
    Proceeds.bind ((Reachable.start earlier).placeAll distinct) fun _ _ placed =>
      placed.operation .prepare trivial
  exact proceeds.yields begun

theorem Reachable.round (reached : Reachable context before) : Proceeds context round before := by
  refine Proceeds.bind (reached.operation .count trivial) fun _ counted reached => ?_
  refine Proceeds.bind (reached.operation .serve trivial) fun _ served reached => ?_
  refine Proceeds.bind (reached.operation .fill trivial) fun _ filled reached => ?_
  exact reached.operation .sweep trivial

theorem Reachable.rounds (reached : Reachable context before) (limit : Nat) :
    Proceeds context (rounds limit) before := by
  induction limit generalizing before with
  | zero => exact reached
  | succ limit inductionHypothesis =>
      by_cases empty : before.pools = []
      · exact Yields.meets (rounds_of_isEmpty empty (limit + 1)) reached
      · rw [Proceeds, Meets, rounds_succ empty]
        exact Proceeds.bind reached.round fun _ middle reached => inductionHypothesis reached

theorem Reachable.executeWithin (reached : Reachable context before) (limit : Nat) :
    Proceeds context (executeWithin limit) before := by
  refine Proceeds.bind (reached.operation .prepare trivial) fun _ prepared reached => ?_
  refine Proceeds.bind (reached.rounds limit) fun isDone middle reached => ?_
  cases isDone with
  | false => exact reached
  | true =>
      exact Proceeds.bind (reached.operation .finish trivial) fun _ finished reached => reached

end Run

end EntityResolver
