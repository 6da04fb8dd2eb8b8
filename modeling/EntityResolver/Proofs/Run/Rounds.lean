import EntityResolver.Proofs.Run.Candidates
import EntityResolver.Proofs.Run.Demands

/-!
Rounds, taken apart.

Between rounds all targets that wait are in the pools. A round serves the first pool by one fetch,
adds the targets spawned meanwhile and sweeps over all of them.
-/

set_option autoImplicit false

namespace EntityResolver

namespace RunState

def pooled (state : RunState) : List Target :=
  state.pools.flatMap Prod.snd

def waiting (state : RunState) : List Target :=
  state.pooled ++ state.spawned

def filled (state : RunState) : RunState :=
  { state with
    pools := (state.spawned.filter Target.isActive).foldl
      (fun pools target => Run.addToPool target pools) state.pools
    spawned := [] }

theorem pooled_of_first {state : RunState} {cls : ClassId} {pool : List Target}
    {others : List (ClassId × List Target)} (first : state.pools = (cls, pool) :: others) :
    state.pooled = pool ++ others.flatMap Prod.snd := by
  rw [pooled, first, List.flatMap_cons]

def Classed (pools : List (ClassId × List Target)) : Prop :=
  ∀ cls pool, (cls, pool) ∈ pools → ∀ target ∈ pool, target.cls = cls

def counted (state : RunState) : RunState :=
  { state with stats := { state.stats with rounds := state.stats.rounds + 1 } }

end RunState

namespace Run

variable {context : RunContext} {before after : RunState}

@[simp] theorem yields_poolSpawned_iff {result : Unit} :
    Yields context poolSpawned before result after ↔ after = before.filled :=
  yields_modify_iff

theorem yields_prepare_iff {result : Unit} :
    Yields context prepare before result after ↔ ∃ satisfied,
      Yields context (satisfyAll before.prerequisites) { before with prerequisites := [] } ()
        satisfied ∧ after = satisfied.filled := by
  simp only [prepare, yields_bind_iff, yields_get_iff, yields_modify_iff, yields_poolSpawned_iff]
  constructor
  · rintro ⟨_, _, ⟨rfl, rfl⟩, _, _, rfl, _, satisfied, satisfies, rfl⟩
    exact ⟨satisfied, satisfies, rfl⟩
  · rintro ⟨satisfied, satisfies, rfl⟩
    exact ⟨_, _, ⟨rfl, rfl⟩, ⟨⟩, _, rfl, ⟨⟩, satisfied, satisfies, rfl⟩

theorem perm_addToPool (target : Target) (pools : List (ClassId × List Target)) :
    ((addToPool target pools).flatMap Prod.snd).Perm (target :: pools.flatMap Prod.snd) := by
  induction pools with
  | nil => exact .refl _
  | cons entry rest inductionHypothesis =>
      obtain ⟨cls, pool⟩ := entry
      simp only [addToPool]
      split
      · simp only [List.flatMap_cons, List.append_assoc, List.singleton_append]
        exact List.perm_middle
      · simp only [List.flatMap_cons]
        exact (inductionHypothesis.append_left pool).trans List.perm_middle

theorem perm_filled (state : RunState) :
    state.filled.pooled.Perm (state.pooled ++ state.spawned.filter Target.isActive) := by
  have fold (targets : List Target) (pools : List (ClassId × List Target)) :
      ((targets.foldl (fun pools target => addToPool target pools) pools).flatMap Prod.snd).Perm
        (pools.flatMap Prod.snd ++ targets) := by
    induction targets generalizing pools with
    | nil => simp
    | cons target rest inductionHypothesis =>
        refine (inductionHypothesis _).trans ?_
        refine ((perm_addToPool target pools).append_right rest).trans ?_
        exact List.perm_middle.symm
  exact fold _ _

theorem flatMap_prune (pools : List (ClassId × List Target)) :
    (prune pools).flatMap Prod.snd = (pools.flatMap Prod.snd).filter Target.isActive := by
  induction pools with
  | nil => rfl
  | cons entry rest inductionHypothesis =>
      obtain ⟨cls, pool⟩ := entry
      have split : prune ((cls, pool) :: rest) = prune [(cls, pool)] ++ prune rest := by
        simp only [prune, ← List.filter_append, ← List.map_append, List.singleton_append]
      have head : (prune [(cls, pool)]).flatMap Prod.snd = pool.filter Target.isActive := by
        cases left : pool.filter Target.isActive <;> simp [prune, left]
      rw [split, List.flatMap_append, head, inductionHypothesis, List.flatMap_cons,
        List.filter_append]

theorem mem_pooled_iff {state : RunState} {target : Target} :
    target ∈ state.pooled ↔ ∃ cls pool, (cls, pool) ∈ state.pools ∧ target ∈ pool := by
  simp [RunState.pooled]

theorem classed_addToPool {target : Target} {pools : List (ClassId × List Target)}
    (classed : RunState.Classed pools) : RunState.Classed (addToPool target pools) := by
  induction pools with
  | nil =>
      intro cls pool member other inPool
      cases List.mem_singleton.mp member
      rw [List.mem_singleton.mp inPool]
  | cons entry rest inductionHypothesis =>
      obtain ⟨first, firstPool⟩ := entry
      have classedRest : RunState.Classed rest := fun cls pool member =>
        classed cls pool (List.mem_cons_of_mem _ member)
      intro cls pool member other inPool
      simp only [addToPool] at member
      split at member
      · rename_i same
        rcases List.mem_cons.mp member with here | inRest
        · cases here
          rcases List.mem_append.mp inPool with old | new
          · exact classed _ _ List.mem_cons_self other old
          · rw [List.mem_singleton.mp new, same]
        · exact classedRest cls pool inRest other inPool
      · rcases List.mem_cons.mp member with here | inRest
        · cases here
          exact classed _ _ List.mem_cons_self other inPool
        · exact inductionHypothesis classedRest cls pool inRest other inPool

theorem classed_filled {state : RunState} (classed : RunState.Classed state.pools) :
    RunState.Classed state.filled.pools := by
  have fold (targets : List Target) {pools : List (ClassId × List Target)}
      (classed : RunState.Classed pools) :
      RunState.Classed (targets.foldl (fun pools target => addToPool target pools) pools) := by
    induction targets generalizing pools with
    | nil => exact classed
    | cons target rest inductionHypothesis => exact inductionHypothesis (classed_addToPool classed)
  exact fold _ classed

theorem classed_prune {pools : List (ClassId × List Target)} (classed : RunState.Classed pools) :
    RunState.Classed (prune pools) := by
  intro cls pool member target inPool
  obtain ⟨⟨_, old⟩, inPools, same⟩ := List.mem_map.mp (List.mem_of_mem_filter member)
  cases same
  exact classed _ _ inPools target (List.mem_of_mem_filter inPool)

theorem cls_of_continues {cls : ClassId} {old new : List Target}
    (pairs : List.Forall₂ Target.Continues old new) (all : ∀ target ∈ old, target.cls = cls) :
    ∀ target ∈ new, target.cls = cls :=
  Target.forall_continues pairs (fun pair same => pair.cls.trans same) all

/-- A pool goes behind the others after it was settled. -/
theorem classed_settled {pools : List (ClassId × List Target)} {cls : ClassId}
    {old settled : List Target} (classed : RunState.Classed pools)
    (pairs : List.Forall₂ Target.Continues old settled) (all : ∀ target ∈ old, target.cls = cls) :
    RunState.Classed (pools ++ prune [(cls, settled)]) := by
  intro other pool member
  rcases List.mem_append.mp member with among | new
  · exact classed other pool among
  · have single : RunState.Classed [(cls, settled)] := by
      intro other pool member
      cases List.mem_singleton.mp member
      exact cls_of_continues pairs all
    exact classed_prune single other pool new

theorem classed_sweepPools {pools swept : List (ClassId × List Target)}
    (continues : List.Forall₂ (fun old new =>
      new.1 = old.1 ∧ List.Forall₂ Target.Continues old.2 new.2) pools swept)
    (classed : RunState.Classed pools) : RunState.Classed swept := by
  induction continues with
  | nil => exact classed
  | @cons old new _ _ pair _ inductionHypothesis =>
      obtain ⟨cls, pool⟩ := old
      obtain ⟨same, pairs⟩ := pair
      intro found sweptPool member
      rcases List.mem_cons.mp member with here | inRest
      · subst here
        subst same
        exact cls_of_continues pairs (classed _ _ List.mem_cons_self)
      · exact inductionHypothesis
          (fun cls pool inOld => classed cls pool (List.mem_cons_of_mem _ inOld)) found sweptPool
          inRest

theorem admitsBelow_of_serves {discipline : Discipline context} {candidacy : Candidacy}
    {supplied : List String} {pool : List Target} {first : Target} {cls : ClassId}
    (serves : candidacy.Serves supplied pool first) (valid : first.WellFormed)
    (admits : ∀ {name sub other inner}, (name, other) ∈ first.selector.resolved → sub.Distinct →
      sub.same other = true → context.catalog.schema.Refers cls name inner →
        discipline.admits inner sub) :
    discipline.AdmitsBelow cls candidacy.selector := by
  intro name sub member inner refers
  obtain ⟨other, inFirst, same⟩ :=
    serves.exists_resolved valid valid (Target.isAlike_refl valid) member
  exact admits inFirst ((serves.distinct valid).of_mem_resolved member) same refers

structure Service (context : RunContext) (before after : RunState) where
  cls : ClassId
  pool : List Target
  others : List (ClassId × List Target)
  getter : Getter
  candidacy : Candidacy
  results : FetchResults
  fetched : RunState
  settled : List Target
  last : RunState
  first : before.pools = (cls, pool) :: others
  best : bestCandidacy? pool (context.catalog.gettersOf cls) = some (getter, candidacy)
  fetches : Yields context (getter.fetch candidacy) { before with pools := others } results fetched
  settles : Yields context
    (settleChosen getter.path candidacy.selector.names results candidacy.chosen 0 pool) fetched
    settled last
  ends : after = { last with pools := last.pools ++ prune [(cls, settled)] }

theorem exists_service (waiting : before.pools ≠ [])
    (done : Yields context serveFirst before () after) :
      Nonempty (Service context before after) := by
  simp only [serveFirst, yields_bind_iff, yields_get_iff] at done
  obtain ⟨_, begun, ⟨rfl, rfl⟩, done⟩ := done
  cases pools : begun.pools with
  | nil => exact absurd pools waiting
  | cons entry others =>
      obtain ⟨cls, pool⟩ := entry
      simp only [pools, yields_bind_iff, yields_modify_iff, yields_read_iff] at done
      obtain ⟨_, _, rfl, given, _, ⟨same, rfl⟩, done⟩ := done
      subst same
      split at done
      · simp only [yields_bind_iff] at done
        obtain ⟨_, _, _, failed⟩ := done
        exact absurd failed not_yields_throw
      · rename_i getter candidacy best
        simp only [yields_bind_iff, yields_modify_iff] at done
        obtain ⟨results, fetched, fetches, settled, last, settles, ends⟩ := done
        exact ⟨⟨cls, pool, others, getter, candidacy, results, fetched, settled, last, pools, best,
          fetches, settles, ends⟩⟩

theorem Service.yields (service : Service context before after) :
    Yields context serveFirst before () after := by
  refine yields_bind_iff.mpr ⟨before, before, yields_get_iff.mpr ⟨rfl, rfl⟩, ?_⟩
  simp only [service.first, yields_bind_iff, yields_modify_iff, yields_read_iff]
  refine ⟨⟨⟩, _, rfl, context, _, ⟨rfl, rfl⟩, ?_⟩
  simp only [service.best, yields_bind_iff, yields_modify_iff]
  exact ⟨service.results, service.fetched, service.fetches, service.settled, service.last,
    service.settles, service.ends⟩

theorem yields_round {served last : RunState} {swept : List (ClassId × List Target)}
    (service : Service context before.counted served)
    (sweeps : Yields context (sweepPools served.filled.pools) served.filled swept last) :
    Yields context round before () { last with pools := prune swept } := by
  simp only [round, sweep, yields_bind_iff, yields_modify_iff, yields_get_iff,
    yields_poolSpawned_iff]
  exact ⟨⟨⟩, _, rfl, ⟨⟩, served, service.yields, ⟨⟩, _, rfl, _, _, ⟨rfl, rfl⟩, swept, last, sweeps,
    rfl⟩

theorem round_cases (waiting : before.pools ≠ []) (done : Yields context round before () after) :
    ∃ served swept last, Nonempty (Service context before.counted served) ∧
      Yields context (sweepPools served.filled.pools) served.filled swept last ∧
      after = { last with pools := prune swept } := by
  simp only [round, sweep, yields_bind_iff, yields_modify_iff, yields_get_iff,
    yields_poolSpawned_iff] at done
  obtain ⟨_, _, rfl, _, served, serves, _, _, rfl, _, _, ⟨rfl, rfl⟩, swept, last, sweeps, rfl⟩ :=
    done
  have waitingToo : before.counted.pools ≠ [] := waiting
  exact ⟨served, swept, last, exists_service waitingToo serves, sweeps, rfl⟩

namespace Service

theorem pools_fetched (service : Service context before after) :
    service.fetched.pools = service.others :=
  (((appending context).fetch (.inr trivial) _ (fun _ _ _ _ _ => trivial) trivial).yields
    service.fetches).1.later.1

/-- The pool that was served, less the targets that are done, goes behind the others. -/
theorem served (service : Service context before after)
    (nodup : ∀ target ∈ service.pool, target.unresolved.Nodup) :
    after.pools = service.others ++ prune [(service.cls, service.settled)] ∧
      after.spawned = service.fetched.spawned ∧
      List.Forall₂ Target.Continues service.pool service.settled := by
  obtain ⟨pairs, quiet, _⟩ := quiet_settleChosen nodup service.settles
  have kept : service.last.pools = service.fetched.pools ∧
      service.last.spawned = service.fetched.spawned := by
    obtain ⟨_, _, _, _, same⟩ := quiet
    rw [same]
    exact ⟨rfl, rfl⟩
  refine ⟨(congrArg RunState.pools service.ends).trans ?_,
    (congrArg RunState.spawned service.ends).trans kept.2, pairs⟩
  simp only [kept.1, service.pools_fetched]

theorem perm_pooled (service : Service context before after)
    (nodup : ∀ target ∈ service.pool, target.unresolved.Nodup) :
    after.filled.pooled.Perm (service.others.flatMap Prod.snd ++
      service.settled.filter Target.isActive ++
      service.fetched.spawned.filter Target.isActive) := by
  obtain ⟨pools, spawned, _⟩ := service.served nodup
  refine (perm_filled after).trans ?_
  have settled := flatMap_prune [(service.cls, service.settled)]
  simp only [List.flatMap_cons, List.flatMap_nil, List.append_nil] at settled
  rw [RunState.pooled, pools, spawned, List.flatMap_append, settled]

theorem pooled_before (service : Service context before after) :
    before.pooled = service.pool ++ service.others.flatMap Prod.snd :=
  RunState.pooled_of_first service.first

theorem classed (service : Service context before after)
    (nodup : ∀ target ∈ service.pool, target.unresolved.Nodup)
    (classed : RunState.Classed before.pools) : RunState.Classed after.filled.pools := by
  obtain ⟨pools, _, pairs⟩ := service.served nodup
  rw [service.first] at classed
  apply classed_filled
  rw [pools]
  apply classed_settled ?_ pairs (classed _ _ List.mem_cons_self)
  exact fun cls pool member => classed cls pool (List.mem_cons_of_mem _ member)

end Service

theorem flatMap_continues {pools swept : List (ClassId × List Target)}
    (continues : List.Forall₂ (fun old new =>
      new.1 = old.1 ∧ List.Forall₂ Target.Continues old.2 new.2) pools swept) :
    List.Forall₂ Target.Continues (pools.flatMap Prod.snd) (swept.flatMap Prod.snd) := by
  induction continues with
  | nil => exact .nil
  | cons pair _ inductionHypothesis => exact List.rel_append pair.2 inductionHypothesis

theorem waiting_of_quiet (quiet : before.Quiet after) : after.waiting = before.waiting := by
  obtain ⟨_, _, _, _, rfl⟩ := quiet
  rfl

theorem mem_waiting_enlisted {target other : Target}
    (member : other ∈ (before.enlisted target).waiting) :
    other ∈ before.waiting ∨ other = target := by
  rcases List.mem_append.mp member with pooled | spawned
  · exact .inl (List.mem_append_left _ pooled)
  · rcases List.mem_append.mp spawned with old | new
    · exact .inl (List.mem_append_right _ old)
    · exact .inr (List.mem_singleton.mp (List.mem_of_mem_filter new))

theorem mem_waiting_filled {target : Target} (member : target ∈ before.filled.waiting) :
    target ∈ before.waiting := by
  have pooled : target ∈ before.filled.pooled := by
    simpa [RunState.waiting, RunState.filled] using member
  rcases List.mem_append.mp ((perm_filled before).mem_iff.mp pooled) with old | spawned
  · exact List.mem_append_left _ old
  · exact List.mem_append_right _ (List.mem_of_mem_filter spawned)

section First

variable {cls : ClassId} {pool settled : List Target} {others : List (ClassId × List Target)}
variable {target : Target}

theorem mem_waiting_first (first : before.pools = (cls, pool) :: others) (member : target ∈ pool) :
    target ∈ before.waiting := by
  apply List.mem_append_left
  rw [RunState.pooled_of_first first]
  exact List.mem_append_left _ member

theorem mem_waiting_others (first : before.pools = (cls, pool) :: others)
    (member : target ∈ ({ before with pools := others } : RunState).waiting) :
    target ∈ before.waiting := by
  rcases List.mem_append.mp member with pooled | spawned
  · apply List.mem_append_left
    rw [RunState.pooled_of_first first]
    exact List.mem_append_right _ pooled
  · exact List.mem_append_right _ spawned

theorem mem_waiting_settled (pairs : List.Forall₂ Target.Continues pool settled)
    (member : target ∈
      ({ after with pools := after.pools ++ prune [(cls, settled)] } : RunState).waiting) :
    target ∈ after.waiting ∨ ∃ old ∈ pool, old.Continues target := by
  rcases List.mem_append.mp member with pooled | spawned
  · rw [RunState.pooled, List.flatMap_append] at pooled
    rcases List.mem_append.mp pooled with old | new
    · exact .inl (List.mem_append_left _ old)
    · rw [flatMap_prune] at new
      exact .inr (Target.exists_continues pairs (by simpa using List.mem_of_mem_filter new))
  · exact .inl (List.mem_append_right _ spawned)

end First

theorem mem_waiting_swept {swept : List (ClassId × List Target)} {target : Target}
    (sweeps : Yields context (sweepPools before.pools) before swept after)
    (member : target ∈ ({ after with pools := prune swept } : RunState).waiting) :
    ∃ old ∈ before.waiting, old.Continues target := by
  obtain ⟨pairs, quiet⟩ := quiet_sweepPools sweeps
  rcases List.mem_append.mp member with pooled | spawned
  · rw [RunState.pooled, flatMap_prune] at pooled
    obtain ⟨old, inOlds, continues⟩ :=
      Target.exists_continues (flatMap_continues pairs) (List.mem_of_mem_filter pooled)
    exact ⟨old, List.mem_append_left _ inOlds, continues⟩
  · refine ⟨target, List.mem_append_right _ ?_, .refl _⟩
    rw [← quiet.spawned]
    exact spawned

structure Waits (fits : Target → Prop) (state : RunState) : Prop where
  none : state.spawned = []
  classed : RunState.Classed state.pools
  fits : ∀ target ∈ state.pooled, fits target

end Run

end EntityResolver
