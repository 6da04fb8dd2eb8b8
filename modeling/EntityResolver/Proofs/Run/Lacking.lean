import EntityResolver.Proofs.Run.Adding
import EntityResolver.Proofs.Run.Keeping
import EntityResolver.Proofs.Run.Sound
import EntityResolver.Proofs.Scheduling

/-!
How much is lacking.

The fields that targets lack are what a run is paid for: what the cache finds is lacking no more,
and neither is what a round has asked for. Filling and pruning change nothing of it.
-/

set_option autoImplicit false

namespace EntityResolver

namespace Target

/-- How many fields targets lack. -/
def lacking (targets : List Target) : Nat :=
  (targets.map fun target => target.unresolved.length).sum

variable {olds news targets others : List Target}

@[simp] theorem lacking_nil : lacking [] = 0 :=
  rfl

@[simp] theorem lacking_cons (target : Target) (targets : List Target) :
    lacking (target :: targets) = target.unresolved.length + lacking targets := by
  simp [lacking]

@[simp] theorem lacking_append (targets others : List Target) :
    lacking (targets ++ others) = lacking targets + lacking others := by
  simp [lacking]

theorem lacking_perm (perm : targets.Perm others) : lacking targets = lacking others :=
  (perm.map _).sum_eq

@[simp] theorem lacking_active (targets : List Target) :
    lacking (targets.filter isActive) = lacking targets := by
  induction targets with
  | nil => rfl
  | cons target rest inductionHypothesis =>
      cases active : target.isActive with
      | true => simp [active, inductionHypothesis]
      | false =>
          have none : target.unresolved = [] := by simpa [isActive] using active
          simp [active, none, inductionHypothesis]

theorem lacking_le (pairs : List.Forall₂ Continues olds news) : lacking news ≤ lacking olds := by
  induction pairs with
  | nil => exact Nat.le_refl _
  | cons pair _ inductionHypothesis =>
      rw [lacking_cons, lacking_cons]
      exact Nat.add_le_add pair.unresolved.length_le inductionHypothesis

/-- Less is lacking once some target has got a field that it lacked. -/
theorem lacking_lt {index : Nat} {target continued : Target} {name : String}
    (pairs : List.Forall₂ Continues olds news) (found : olds[index]? = some target)
    (foundToo : news[index]? = some continued) (lacked : name ∈ target.unresolved)
    (served : name ∉ continued.unresolved) : lacking news < lacking olds := by
  induction pairs generalizing index with
  | nil => cases found
  | @cons old new olds news pair pairs inductionHypothesis =>
      rw [lacking_cons, lacking_cons]
      cases index with
      | zero =>
          cases found
          cases foundToo
          have shorter : continued.unresolved.length < target.unresolved.length := by
            refine Nat.lt_of_le_of_ne pair.unresolved.length_le fun same => served ?_
            rwa [pair.unresolved.eq_of_length same]
          exact Nat.add_lt_add_of_lt_of_le shorter (lacking_le pairs)
      | succ index =>
          exact Nat.add_lt_add_of_le_of_lt pair.unresolved.length_le
            (inductionHypothesis found foundToo)

end Target

namespace Run

open Target

variable {context : RunContext} {before middle after : RunState} {target continued : Target}

theorem costs_traverseEntities {referenced : ClassId} {value : FieldValue String}
    {restored : FieldValue Handle}
    (done : Yields context (value.traverseEntities fun id => alloc referenced (some id) []) before
      restored after) : after.costs = before.costs :=
  (yields_traverseEntities (fun _ => True) (fun one other => other.costs = one.costs)
    (fun _ _ _ => True) (fun _ => rfl) (fun first second => second.trans first)
    (fun _ found => found) (fun _ _ allocated => by
      obtain ⟨_, rfl⟩ := yields_alloc_iff.mp allocated
      exact ⟨trivial, rfl, trivial⟩) trivial done).2.1

theorem costs_sweepPools {pools swept : List (ClassId × List Target)}
    (done : Yields context (sweepPools pools) before swept after) :
    after.calls = before.calls ∧ after.stats.rounds = before.stats.rounds ∧
      after.stats.remoteCalls = before.stats.remoteCalls := by
  let counts (state : RunState) : Prop := state.calls = before.calls ∧
    state.stats.rounds = before.stats.rounds ∧ state.stats.remoteCalls = before.stats.remoteCalls
  have started : counts before := ⟨rfl, rfl, rfl⟩
  refine invariant_sweepPools (fun target _ => ?_) started done
  intro earlier state restored continued name field kept value _ _ _ _ holds traversed
  have same : restored.calls = state.calls ∧ restored.stats = state.stats :=
    Prod.ext_iff.mp (costs_traverseEntities traversed)
  simp only [counts, ← same.1, ← same.2] at holds
  exact holds

theorem hits_resolveCached {served : List (String × FieldValue String)}
    (names : (served.map Prod.fst).Nodup) (lacked : served.map Prod.fst ⊆ target.unresolved)
    (nodup : target.unresolved.Nodup)
    (done : Yields context (resolveCached served target) before continued after) :
    after.stats.cacheHits + continued.unresolved.length =
      before.stats.cacheHits + target.unresolved.length := by
  induction served generalizing before target with
  | nil =>
      obtain ⟨rfl, rfl⟩ := yields_pure_iff.mp done
      rfl
  | cons entry rest inductionHypothesis =>
      obtain ⟨name, kept⟩ := entry
      rw [List.map_cons] at names lacked
      obtain ⟨fresh, names⟩ := List.nodup_cons.mp names
      obtain ⟨lacks, lacked⟩ := List.cons_subset.mp lacked
      simp only [resolveCached, yields_bind_iff, yields_schema_iff] at done
      obtain ⟨_, _, ⟨rfl, rfl⟩, done⟩ := done
      split at done
      · exact inductionHypothesis names lacked nodup done
      · simp only [yields_bind_iff, yields_resolve_iff, yields_modify_iff] at done
        obtain ⟨value, restored, traversed, _, _, ⟨rfl, rfl⟩, _, _, rfl, remaining⟩ := done
        have same : restored.stats.cacheHits = _ :=
          congrArg (fun costs => costs.2.cacheHits) (costs_traverseEntities traversed)
        have lackedRest : rest.map Prod.fst ⊆ (target.without name).unresolved := by
          intro other member
          have different : other ≠ name := fun same => fresh (same ▸ member)
          exact (List.mem_erase_of_ne different).mpr (lacked member)
        have more := inductionHypothesis names lackedRest (nodup.erase name) remaining
        have fewer : (target.without name).unresolved.length = target.unresolved.length - 1 :=
          List.length_erase_of_mem lacks
        have some : 0 < target.unresolved.length := List.length_pos_of_mem lacks
        change _ = (restored.stats.cacheHits + 1) + _ at more
        simp only [RunState.costs] at same
        omega

theorem hits_sweepPool {pool swept : List Target}
    (nodup : ∀ target ∈ pool, target.unresolved.Nodup)
    (done : Yields context (sweepPool pool) before swept after) :
    after.stats.cacheHits + lacking swept = before.stats.cacheHits + lacking pool := by
  induction pool generalizing before swept with
  | nil =>
      obtain ⟨rfl, rfl⟩ := yields_pure_iff.mp done
      rfl
  | cons target rest inductionHypothesis =>
      simp only [sweepPool, yields_bind_iff, yields_get_iff, yields_pure_iff] at done
      obtain ⟨_, begun, ⟨rfl, rfl⟩, continued, middle, first, others, _, remaining, rfl, rfl⟩ :=
        done
      obtain ⟨nodupFirst, nodupRest⟩ := List.forall_mem_cons.mp nodup
      have served := Sound.sublist_servable begun target
      have here := hits_resolveCached (served.nodup nodupFirst) served.subset nodupFirst first
      have there := inductionHypothesis nodupRest remaining
      rw [lacking_cons, lacking_cons]
      omega

/-- Sweeping neither gains nor loses: a hit more is a field less that is lacking. -/
theorem hits_sweepPools {pools swept : List (ClassId × List Target)}
    (nodup : ∀ target ∈ pools.flatMap Prod.snd, target.unresolved.Nodup)
    (done : Yields context (sweepPools pools) before swept after) :
    after.stats.cacheHits + lacking (swept.flatMap Prod.snd) =
      before.stats.cacheHits + lacking (pools.flatMap Prod.snd) := by
  induction pools generalizing before swept with
  | nil =>
      obtain ⟨rfl, rfl⟩ := yields_pure_iff.mp done
      rfl
  | cons entry rest inductionHypothesis =>
      obtain ⟨cls, pool⟩ := entry
      rw [List.flatMap_cons] at nodup
      simp only [sweepPools, yields_bind_iff, yields_pure_iff] at done
      obtain ⟨continued, middle, first, others, _, remaining, rfl, rfl⟩ := done
      have here : _ = before.stats.cacheHits + lacking pool := hits_sweepPool
        (fun target member => nodup target (List.mem_append_left _ member)) first
      have there := inductionHypothesis
        (fun target member => nodup target (List.mem_append_right _ member)) remaining
      rw [List.flatMap_cons, List.flatMap_cons, lacking_append, lacking_append]
      change _ + (lacking continued + _) = _ + (lacking pool + _)
      omega

section Settling

variable {path : String} {names : List String} {results : FetchResults} {chosen : List Nat}

theorem costs_settleChosen {position : Nat} {pool settled : List Target}
    (done : Yields context (settleChosen path names results chosen position pool) before settled
      after) : after.costs = before.costs := by
  let kept (state : RunState) : Prop := state.costs = before.costs
  have settles (target : Target) : Settles context kept names results target := by
    refine ⟨fun _ _ _ _ _ same => ?_, fun same => same⟩
    unfold kept RunState.learned RunState.stored RunState.kept at *
    split <;> exact same
  have started : kept before := rfl
  exact ((meets_settleChosen (fun target _ => settles target) started).yields done).2

end Settling

/-- The state that a step leaves behind, with a result or with an error. -/
def left {α : Type} (context : RunContext) (step : Run α) (before : RunState) : RunState :=
  match step context before with
  | .ok _ after | .error _ after => after

/-- The targets that a step spawns, each as it was then. They stay in the queue for the next
filling. -/
def spawnedBy {α : Type} (context : RunContext) (step : Run α) (before : RunState) : List Target :=
  (left context step before).spawned.drop before.spawned.length

theorem spawnedBy_of_yields {α : Type} {step : Run α} {result : α}
    (done : Yields context step before result after) :
    spawnedBy context step before = after.spawned.drop before.spawned.length := by
  rw [Yields] at done
  rw [spawnedBy, left, done]

theorem spawnedBy_spawn (cls : ClassId) (id : String) {selector : Selector} (values : FieldValues)
    (isWeak : Bool) (before : RunState) (distinct : selector.Distinct) :
    ∃ target : Target, target.entity = ⟨before.arena.size⟩ ∧ target.cls = cls ∧ target.id = id ∧
      target.unresolved = (selector.names.filter fun name => values.get? name = none) ∧
      spawnedBy context (spawn cls id selector values isWeak) before =
        [target].filter isActive := by
  obtain ⟨entity, after, done⟩ : Succeeds context (spawn cls id selector values isWeak) before :=
    succeeds_spawn _ _ _ _ _ _
  have spawned := spawnedBy_of_yields done
  obtain ⟨rfl, target, resolved, given, rfl⟩ := yields_spawn_iff.mp done
  obtain ⟨continues, quiet⟩ := quiet_resolveGiven given
  have lacks : target.unresolved =
      selector.names.diff (selector.names.filter fun name => (values.get? name).isSome) :=
    unresolved_resolveGiven given
  refine ⟨target, continues.entity, continues.cls, continues.id, ?_, spawned.trans ?_⟩
  · rw [lacks, distinct.nodup.sdiff_eq_filter]
    refine List.filter_congr fun name selected => ?_
    cases found : values.get? name <;> simp [selected, found]
  · change (resolved.spawned ++ _).drop _ = _
    rw [quiet.spawned]
    exact List.drop_left

namespace Service

theorem spends (service : Service context before after) : Spends 1 before after := by
  have fetches := spends_fetch (mem_of_bestCandidacy service.best).2 service.fetches
  have settles := fetches.keeps (costs_settleChosen service.settles)
  rw [service.ends]
  exact ⟨settles.calls, settles.stats⟩

variable (service : Service context before after)

theorem lacking_settled (tidy : before.Tidy []) :
    lacking service.settled < lacking service.pool := by
  have offered := (mem_of_bestCandidacy service.best).2
  have wellFormed (target : Target) (member : target ∈ service.pool) : target.WellFormed :=
    tidy.own.wellFormed target (mem_waiting_first service.first member)
  obtain ⟨named, chosen, lacks⟩ := service.getter.candidacy_wanted wellFormed offered
  obtain ⟨index, isChosen⟩ := List.exists_mem_of_ne_nil _ chosen
  obtain ⟨name, wanted⟩ := List.exists_mem_of_ne_nil _ named
  obtain ⟨target, found, lacked⟩ := lacks index isChosen
  obtain ⟨pairs, _, served⟩ := quiet_settleChosen (service.nodup_pool tidy) service.settles
  obtain ⟨continued, foundToo, gone⟩ := served index target found (by simpa using isChosen)
  exact lacking_lt pairs found foundToo (lacked wanted) (gone name wanted)

theorem lacking_filled (tidy : before.Tidy []) :
    lacking after.filled.pooled < lacking before.pooled + lacking service.fetched.spawned := by
  have settled := service.lacking_settled tidy
  rw [lacking_perm (service.perm_pooled (service.nodup_pool tidy)), service.pooled_before]
  simp only [lacking_append, lacking_active]
  omega

end Service

theorem costs_round (waiting : before.pools ≠ []) (done : Yields context round before () after) :
    (∃ request, after.calls = before.calls ++ [request]) ∧
      after.stats.rounds = before.stats.rounds + 1 ∧
      after.stats.remoteCalls = before.stats.remoteCalls + 1 := by
  obtain ⟨served, swept, last, ⟨service⟩, sweeps, rfl⟩ := round_cases waiting done
  obtain ⟨⟨made, calls, one⟩, stats⟩ := service.spends
  obtain ⟨request, rfl⟩ := List.length_eq_one_iff.mp one
  obtain ⟨sameCalls, rounds, remoteCalls⟩ := costs_sweepPools sweeps
  refine ⟨⟨request, sameCalls.trans calls⟩, rounds.trans ?_, remoteCalls.trans ?_⟩
  · change served.stats.rounds = _
    rw [stats]
    rfl
  · change served.stats.remoteCalls = _
    rw [stats]
    rfl

theorem lacking_round (tidy : before.Tidy []) (none : before.spawned = [])
    (waiting : before.pools ≠ []) (done : Yields context round before () after) :
    after.spawned = [] ∧ after.stats.cacheHits + lacking after.pooled <
      before.stats.cacheHits + lacking before.pooled +
        lacking (spawnedBy context serveFirst before.counted) := by
  obtain ⟨served, swept, last, ⟨service⟩, sweeps, rfl⟩ := round_cases waiting done
  have tidyCounted : before.counted.Tidy [] := tidy.congr rfl rfl (Nat.le_refl _) rfl
  have tidyFilled := tidy_filled (service.tidy_after tidyCounted)
  have nodup (target : Target) (member : target ∈ served.filled.pooled) : target.unresolved.Nodup :=
    (tidyFilled.own.wellFormed target (List.mem_append_left served.filled.spawned member)).nodup
  have turn := service.lacking_filled tidyCounted
  have hits := hits_sweepPools nodup sweeps
  have sameHits : served.filled.stats.cacheHits = before.stats.cacheHits :=
    (congrArg RunStats.cacheHits service.spends.stats).trans rfl
  have spawned : spawnedBy context serveFirst before.counted = service.fetched.spawned := by
    rw [spawnedBy_of_yields service.yields, (service.served (service.nodup_pool tidyCounted)).2.1]
    change List.drop before.spawned.length _ = _
    rw [none, List.length_nil, List.drop_zero]
  have pruned : lacking ((prune swept).flatMap Prod.snd) = lacking (swept.flatMap Prod.snd) := by
    rw [flatMap_prune, lacking_active]
  refine ⟨(quiet_sweepPools sweeps).2.spawned, ?_⟩
  change last.stats.cacheHits + lacking ((prune swept).flatMap Prod.snd) < _
  rw [pruned, spawned, hits, sameHits, Nat.add_assoc]
  exact Nat.add_lt_add_left turn _

end Run

end EntityResolver
