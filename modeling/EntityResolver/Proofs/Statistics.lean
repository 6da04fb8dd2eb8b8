import EntityResolver.Proofs.Listing
import EntityResolver.Proofs.Run.Lacking

/-!
# What runs cost

Every round is one call, and so is every prerequisite and the call for the current user; there are
no other calls. A round serves some field that a target lacks, and a hit is for another one, so that
rounds and hits together are no more than the fields that targets lack when they are spawned.
-/

set_option autoImplicit false

namespace EntityResolver

namespace Run

open Target

variable {context : RunContext} {before after ready : RunState} {earlier : List Call} {α β : Type}

structure Balanced (earlier : List Call) (more : Nat) (state : RunState) : Prop where
  calls : ∃ made, state.calls = earlier ++ made ∧ made.length = state.stats.remoteCalls
  remoteCalls : state.stats.remoteCalls = state.stats.rounds + more

theorem balanced_of_spends {more : Nat} (spends : Spends more { calls := earlier } after) :
    Balanced earlier more after := by
  obtain ⟨⟨made, calls, rfl⟩, stats⟩ := spends
  rw [Nat.zero_add] at stats
  exact ⟨⟨made, calls, by rw [stats]⟩, by rw [stats, Nat.zero_add]⟩

theorem Balanced.round {more : Nat} (balanced : Balanced earlier more before)
    (waiting : before.pools ≠ []) (done : Yields context round before () after) :
    Balanced earlier more after := by
  obtain ⟨⟨made, calls, counted⟩, remoteCalls⟩ := balanced
  obtain ⟨⟨request, next⟩, rounds, called⟩ := costs_round waiting done
  refine ⟨⟨made ++ [request], by rw [next, calls, List.append_assoc], ?_⟩, by omega⟩
  rw [List.length_append, counted, called, List.length_singleton]

theorem Passes.balanced {more : Nat} (passes : Passes context before after)
    (balanced : Balanced earlier more before) : Balanced earlier more after := by
  induction passes with
  | refl => exact balanced
  | tail _ last inductionHypothesis => exact inductionHypothesis.round last.1 last.2

theorem spends_satisfyAll {prerequisites : List Prerequisite}
    (done : Yields context (satisfyAll prerequisites) before () after) :
    Spends prerequisites.length before after := by
  induction prerequisites generalizing before with
  | nil =>
      obtain ⟨_, rfl⟩ := yields_pure_iff.mp done
      exact spends_of_costs rfl
  | cons prerequisite rest inductionHypothesis =>
      obtain ⟨_, middle, first, remaining⟩ := yields_bind_iff.mp done
      rw [satisfy_eq] at first
      obtain ⟨entities, found, finds, fills⟩ := yields_bind_iff.mp first
      have same : middle.costs = found.costs := by rw [yields_modify_iff.mp fills]; rfl
      rw [List.length_cons, Nat.add_comm]
      exact ((spends_find finds).keeps same).trans (inductionHypothesis remaining)

theorem spends_prepare (done : Yields context prepare before () after) :
    Spends before.prerequisites.length before after := by
  obtain ⟨satisfied, satisfies, rfl⟩ := yields_prepare_iff.mp done
  have spends := spends_satisfyAll satisfies
  exact Spends.keeps ⟨spends.calls, spends.stats⟩ rfl

/-- The targets that come up in up to `limit` rounds, each as it was spawned. -/
def spawnedInRounds (context : RunContext) : Nat → RunState → List Target
  | 0, _ => []
  | limit + 1, before =>
      if before.pools.isEmpty then []
      else spawnedBy context serveFirst before.counted ++
        match round context before with
        | .ok _ after => spawnedInRounds context limit after
        | .error _ _ => []

/-- Begins a run for demands, up to where the spawned targets are filled into pools. -/
def summon (demands : List Demand) : Run Unit := do
  Demand.placeAll demands
  let prerequisites := (← get).prerequisites
  modify fun state => { state with prerequisites := [] }
  satisfyAll prerequisites

theorem begin_eq (demands : List Demand) :
    (do Demand.placeAll demands; prepare) = summon demands >>= fun _ => poolSpawned := by
  simp only [summon, prepare, bind_assoc]

/-- The targets that come up in a run of at most `limit` rounds, each as it was spawned. -/
def spawnedInRun (context : RunContext) (limit : Nat) (demands : List Demand) (before : RunState) :
    List Target :=
  spawnedBy context (summon demands) before ++
    match summon demands context before with
    | .ok _ summoned => spawnedInRounds context limit summoned.filled
    | .error _ _ => []

theorem lacking_pos (tidy : before.Tidy []) (waiting : before.pools ≠ []) :
    0 < lacking before.pooled := by
  obtain ⟨⟨cls, pool⟩, others, first⟩ := List.exists_cons_of_ne_nil waiting
  obtain ⟨filled, active⟩ := tidy.lively cls pool (first ▸ List.mem_cons_self)
  obtain ⟨target, rest, rfl⟩ := List.exists_cons_of_ne_nil filled
  have lacks : target.unresolved ≠ [] := by
    simpa [Target.isActive] using active target List.mem_cons_self
  have some := List.length_pos_iff.mpr lacks
  rw [RunState.pooled_of_first first, lacking_append]
  change 0 < lacking (target :: rest) + _
  rw [lacking_cons]
  omega

theorem progress_of_round_error (waiting : before.pools ≠ []) {error : ResolveError}
    {failed : RunState} (fails : round context before = .error error failed) :
    failed.stats.rounds = before.stats.rounds + 1 ∧
      failed.stats.cacheHits = before.stats.cacheHits := by
  let counted (state : RunState) : Prop := state.progress.2 = before.counted.progress.2
  obtain ⟨⟨cls, pool⟩, others, first⟩ := List.exists_cons_of_ne_nil waiting
  have serves : Meets context serveFirst before.counted (fun _ _ => True) counted := by
    refine meets_serveFirst first rfl fun getter candidacy _ => ?_
    have fetches := (beginning_keeps_progress.fetch Scope.reads_everything :
      Keeps RunState.progress (getter.fetch candidacy)) context
      { before.counted with pools := others }
    refine Meets.mono fetches (fun results fetched same => ?_)
      fun _ same => (congrArg Prod.snd same :)
    have settles (target : Target) :
        Settles context counted candidacy.selector.names results target := by
      refine ⟨fun _ _ _ _ _ same => ?_, fun same => same⟩
      unfold counted RunState.learned RunState.stored RunState.kept at *
      split <;> exact same
    have started : counted fetched := (congrArg Prod.snd same :)
    exact Meets.mono (meets_settleChosen (fun target _ => settles target) started)
      (fun _ _ _ => trivial) fun _ same => same
  have round : Meets context round before (fun _ _ => True) counted :=
    meets_round serves fun _ _ _ _ _ => trivial
  exact Prod.ext_iff.mp ((meets_iff.mp round).2 error failed fails)

theorem progress_of_rounds (limit : Nat) (reached : Reachable context before)
    (none : before.spawned = []) :
    let bounded (state : RunState) : Prop := state.stats.rounds + state.stats.cacheHits ≤
      before.stats.rounds + before.stats.cacheHits + lacking before.pooled +
        lacking (spawnedInRounds context limit before)
    Meets context (rounds limit) before (fun _ => bounded) bounded := by
  induction limit generalizing before with
  | zero =>
      have done : Yields context (rounds 0) before before.pools.isEmpty before := rfl
      exact done.meets (by omega)
  | succ limit inductionHypothesis =>
      by_cases empty : before.pools = []
      · have done : Yields context (rounds (limit + 1)) before true before :=
          rounds_of_isEmpty empty _
        exact done.meets (by omega)
      · intro bounded
        rw [Meets, rounds_succ empty]
        refine meets_bind_iff.mpr ?_
        have unfolded : spawnedInRounds context (limit + 1) before =
            spawnedBy context serveFirst before.counted ++
              match round context before with
              | .ok _ after => spawnedInRounds context limit after
              | .error _ _ => [] := by
          rw [spawnedInRounds, if_neg (by simpa using empty)]
        refine meets_iff.mpr ⟨fun _ middle first => ?_, fun error failed fails => ?_⟩
        · obtain ⟨noneToo, paid⟩ := lacking_round reached.tidy none empty first
          have counted := (costs_round empty first).2.1
          rw [Yields] at first
          rw [first] at unfolded
          refine Meets.mono (inductionHypothesis (reached.round.yields first) noneToo) ?_ ?_
          all_goals
            intros
            simp only [bounded, unfolded, lacking_append]
            omega
        · obtain ⟨counted, hits⟩ := progress_of_round_error empty fails
          have some := lacking_pos reached.tidy empty
          change failed.stats.rounds + failed.stats.cacheHits ≤ _
          omega

theorem keeps_summon (demands : List Demand) : Keeps RunState.progress (summon demands) := by
  refine (beginning_keeps_progress.placeAll fun _ _ => Scope.places_everything _).bind fun _ => ?_
  refine beginning_keeps_progress.get.bind fun state => ?_
  refine Keeps.bind ?_ fun _ =>
    beginning_keeps_progress.satisfyAll fun _ _ _ _ => Scope.finds_everything _ _
  exact beginning_keeps_progress.arrange (fun _ => []) RunState.outputs

/-- Whether a run fails or not, its rounds and hits are no more than the fields that its targets
lacked when they were spawned. -/
theorem progress_of_run {demands : List Demand} (limit : Nat)
    (distinct : ∀ demand ∈ demands, demand.selector.Distinct) :
    let bounded (state : RunState) : Prop := state.stats.rounds + state.stats.cacheHits ≤
      lacking (spawnedInRun context limit demands { calls := earlier })
    Meets context (Demand.runWithin limit demands) { calls := earlier } (fun _ => bounded)
      bounded := by
  intro bounded
  let begun (ready : RunState) : Prop := Reachable context ready ∧ ready.spawned = [] ∧
    ready.stats.rounds + ready.stats.cacheHits = 0 ∧
    lacking ready.pooled + lacking (spawnedInRounds context limit ready) =
      lacking (spawnedInRun context limit demands { calls := earlier })
  have begins : Meets context (do Demand.placeAll demands; prepare) { calls := earlier }
      (fun _ => begun) bounded := by
    rw [begin_eq]
    refine meets_bind_iff.mpr (meets_iff.mpr ⟨fun _ summoned first => ?_,
      fun error failed fails => ?_⟩)
    · have fills : Yields context poolSpawned summoned () summoned.filled :=
        yields_poolSpawned_iff.mpr rfl
      have begun : Yields context (do Demand.placeAll demands; prepare) { calls := earlier } ()
          summoned.filled := begin_eq demands ▸ yields_bind_iff.mpr ⟨_, _, first, fills⟩
      have same : summoned.progress = ([], 0, 0) := (keeps_summon demands).yields first
      obtain ⟨pools, rounds, hits⟩ : summoned.pools = [] ∧ summoned.stats.rounds = 0 ∧
          summoned.stats.cacheHits = 0 := by simpa [RunState.progress] using same
      refine fills.meets ⟨reachable_of_begun distinct begun, rfl, ?_, ?_⟩
      · change summoned.stats.rounds + summoned.stats.cacheHits = 0
        rw [rounds, hits]
      · have spawned : spawnedBy context (summon demands) { calls := earlier } =
            summoned.spawned := spawnedBy_of_yields first
        rw [spawnedInRun, spawned, lacking_append, lacking_perm (perm_filled summoned),
          RunState.pooled, pools, lacking_append, lacking_active]
        rw [Yields] at first
        rw [first]
        simp
    · have same : failed.progress = ([], 0, 0) :=
        (meets_iff.mp (keeps_summon demands context { calls := earlier })).2 error failed fails
      obtain ⟨_, rounds, hits⟩ : failed.pools = [] ∧ failed.stats.rounds = 0 ∧
          failed.stats.cacheHits = 0 := by simpa [RunState.progress] using same
      simp [bounded, rounds, hits]
  refine meets_runWithin begins (fun ready held => ?_) (fun _ holds => holds) fun _ holds => holds
  obtain ⟨reached, unqueued, start, total⟩ := held
  refine Meets.mono (progress_of_rounds limit reached unqueued) ?_ ?_
  all_goals
    intros
    simp only [bounded, ← total]
    omega

end Run

namespace Session

open Run

variable {α β : Type}

/-- The request has made as many calls as its run counts: one in each round, and some more. -/
structure Accounts (more : Nat) (before after : SessionState) : Prop where
  calls : ∃ made, after.calls = before.calls ++ made ∧ made.length = after.lastRun.remoteCalls
  remoteCalls : after.lastRun.remoteCalls = after.lastRun.rounds + more

/-- What a request wants costs some calls at once, and one for each prerequisite. -/
theorem accounts_of_run {session : Session} {want : Run α} {finish : α → Run β} {count slots : Nat}
    {before after : SessionState} {result : β}
    (wants : ∀ wanted placed, Yields session.context want { calls := before.calls } wanted placed →
      Spends count { calls := before.calls } placed ∧ placed.prerequisites.length = slots)
    (finishes : ∀ wanted, Keeps RunState.costs (finish wanted))
    (done : session.run want finish before = .ok result after) :
    Accounts (count + slots) before after := by
  obtain ⟨ended, steps, rfl⟩ := run_eq_ok_iff.mp done
  change Yields session.context (Session.stepsWithin session.roundLimit want finish) _ _ _ at steps
  obtain ⟨wanted, placed, ready, final, first, prepared, rounds, finished⟩ :=
    yields_stepsWithin_iff.mp steps
  obtain ⟨spends, rfl⟩ := wants wanted placed first
  have balanced := (passes_of_rounds rounds).1.balanced
    (balanced_of_spends (spends.trans (spends_prepare prepared)))
  have same : ended.calls = final.calls ∧ ended.stats = final.stats :=
    Prod.ext_iff.mp ((finishes wanted).yields finished)
  obtain ⟨calls, remoteCalls⟩ := balanced
  rw [← same.1, ← same.2] at calls
  rw [← same.2] at remoteCalls
  exact ⟨calls, remoteCalls⟩

theorem keeps_spawnRoots {τ : Type} {look : RunState → τ} (untouched : Untouched look)
    (cls : ClassId)
    (selector : Selector) (ids : List String) : Keeps look (spawnRoots cls selector ids) := by
  induction ids with
  | nil => exact keeps_pure []
  | cons id rest inductionHypothesis =>
      exact (keeps_spawn untouched cls id selector [] true).bind fun _ =>
        inductionHypothesis.bind fun _ => keeps_pure _

theorem keeps_tree {τ : Type} (look : RunState → τ) (entity : Handle) : Keeps look (tree entity) :=
  fun _ _ => rfl

theorem keeps_presentTrees {τ : Type} (look : RunState → τ) (roots : List (String × Handle)) :
    Keeps look (presentTrees roots) :=
  keeps_of_yields fun _ _ => ⟨_, _, yields_presentTrees_iff.mpr ⟨rfl, rfl⟩, rfl⟩

theorem keeps_outputTrees (slot : Nat) : Keeps RunState.costs (outputTrees slot) :=
  keeps_of_yields fun _ _ => ⟨_, _, yields_outputTrees_iff.mpr ⟨rfl, rfl⟩, rfl⟩

section Requests

variable {session : Session} {cls : ClassId} {selector : Selector} {before after : SessionState}

/-- What spawns entities at once costs nothing and waits for nothing. -/
theorem wants_of_keeps {want : Run α} (costs : Keeps RunState.costs want)
    (prerequisites : Keeps RunState.prerequisites want) (wanted : α) (placed : RunState)
    (done : Yields session.context want { calls := before.calls } wanted placed) :
    Spends 0 { calls := before.calls } placed ∧ placed.prerequisites.length = 0 :=
  ⟨spends_of_costs (costs.yields done), congrArg List.length (prerequisites.yields done)⟩

/-- What waits for a slot to be filled costs nothing yet. -/
theorem wants_of_wantSlot (prerequisite : Nat → Prerequisite) (wanted : Nat) (placed : RunState)
    (done : Yields session.context (wantSlot prerequisite) { calls := before.calls } wanted placed) :
    Spends 0 { calls := before.calls } placed ∧ placed.prerequisites.length = 1 := by
  obtain ⟨_, rfl⟩ := yields_wantSlot_iff.mp done
  exact ⟨spends_of_costs rfl, rfl⟩

end Requests

/-- A request that succeeds has made as many calls as its run counts: one in each round, and some
more. -/
def Costs (more : Nat) (request : Request α) : Prop :=
  ∀ before result after, request before = .ok result after → Accounts more before after

theorem Costs.bind {more : Nat} {request : Request α} {next : α → Request β}
    (costs : Costs more request)
    (rest : ∀ value before result after, next value before = .ok result after → after = before) :
    Costs more (request >>= next) := by
  intro before result after done
  cases outcome : request before with
  | error error failed => simp [Bind.bind, EStateM.bind, outcome] at done
  | ok value middle =>
      simp only [Bind.bind, EStateM.bind, outcome] at done
      exact rest value middle result after done ▸ costs before value middle outcome

theorem unchanged_of_ofExcept {outcome : Except ResolveError α} {before after : SessionState}
    {result : α} (done : (ofExcept outcome : Request α) before = .ok result after) :
    after = before := by
  cases outcome with
  | ok value => cases done; rfl
  | error error => cases done

variable (session : Session) (cls : ClassId) (selector : Selector)

theorem costs_entity (id : String) : Costs 0 (session.run (spawn cls id selector [] true) tree) :=
  fun _ _ _ => accounts_of_run (wants_of_keeps (keeps_spawn (fun _ _ _ _ _ _ => rfl) _ _ _ _ _)
    (keeps_spawn (fun _ _ _ _ _ _ => rfl) _ _ _ _ _)) (keeps_tree _)

theorem costs_getWith (id : String) : Costs 0 (session.getWith cls id selector) := by
  refine (session.costs_entity cls selector id).bind fun entity before result after done => ?_
  cases present : entity.isPresent with
  | true =>
      rw [present] at done
      cases done
      rfl
  | false =>
      rw [present] at done
      cases done

theorem costs_getManyWith (ids : List String) : Costs 0 (session.getManyWith cls ids selector) :=
  fun _ _ _ => accounts_of_run (wants_of_keeps (keeps_spawnRoots (fun _ _ _ _ _ _ => rfl) _ _ _)
    (keeps_spawnRoots (fun _ _ _ _ _ _ => rfl) _ _ _)) (keeps_presentTrees _)

theorem costs_listWith (domain : String) : Costs 1 (session.listWith cls domain selector) :=
  fun _ _ _ => accounts_of_run (wants_of_wantSlot (.list cls domain selector)) keeps_outputTrees

theorem costs_items (query : String) :
    Costs 1 (session.run (wantSearch cls query selector) outputTrees) :=
  fun _ _ _ => accounts_of_run (wants_of_wantSlot (.search cls query selector)) keeps_outputTrees

theorem costs_searchWith (query : String) : Costs 1 (session.searchWith cls query selector) := by
  refine (session.costs_items cls selector query).bind fun items before result after done => ?_
  cases found : ((session.catalog.schema.class? cls).bind EntityClass.searchItem).bind
      session.catalog.schema.class? with
  | none =>
      rw [found] at done
      cases done
  | some itemClass =>
      rw [found] at done
      exact unchanged_of_ofExcept done

theorem costs_user (method : CurrentUserMethod) :
    Costs 1 (session.run (method.load selector) tree) :=
  fun _ _ _ => accounts_of_run (fun _ _ loads => ⟨spends_currentUser loads, congrArg List.length
    ((calling_keeps_prerequisites.currentUser Scope.reads_everything).yields loads)⟩) (keeps_tree _)

theorem costs_currentUser (fields : Option String) : Costs 1 (session.currentUser fields) := by
  intro before result after done
  unfold currentUser at done
  cases registered : session.catalog.currentUser with
  | none =>
      rw [registered] at done
      cases done
  | some method =>
      rw [registered] at done
      cases selected : session.classSelector method.cls fields with
      | error error =>
          simp only [selected] at done
          cases done
      | ok selector =>
          simp only [selected] at done
          exact session.costs_user selector method before result after done

/-- A request that succeeds has made the calls that its run counts, one in each round; a list, a
search and the current user take one more. Of any run, whether it fails or not, the rounds and the
hits are no more than the fields that its targets lacked when they were spawned. -/
theorem costs_of_requests :
    (∀ cls id selector, Costs 0 (session.run (Run.spawn cls id selector [] true) tree) ∧
      Costs 0 (session.getWith cls id selector)) ∧
    (∀ cls ids selector, Costs 0 (session.getManyWith cls ids selector)) ∧
    (∀ cls domain selector, Costs 1 (session.listWith cls domain selector)) ∧
    (∀ cls query selector, Costs 1 (session.run (Run.wantSearch cls query selector) outputTrees) ∧
      Costs 1 (session.searchWith cls query selector)) ∧
    (∀ fields, Costs 1 (session.currentUser fields)) ∧
    ∀ (demands : List Demand) (limit : Nat) (earlier : List Call) (ended : RunState),
      (∀ demand ∈ demands, demand.selector.Distinct) →
      Leaves session.context (Demand.runWithin limit demands) { calls := earlier } ended →
      ended.stats.rounds + ended.stats.cacheHits ≤
        Target.lacking (spawnedInRun session.context limit demands { calls := earlier }) :=
  ⟨fun cls id selector =>
      ⟨session.costs_entity cls selector id, session.costs_getWith cls selector id⟩,
    fun cls ids selector => session.costs_getManyWith cls selector ids,
    fun cls domain selector => session.costs_listWith cls selector domain,
    fun cls query selector =>
      ⟨session.costs_items cls selector query, session.costs_searchWith cls selector query⟩,
    session.costs_currentUser,
    fun _ limit _ _ distinct leaves => (progress_of_run limit distinct).of_leaves leaves⟩

end Session

namespace Units

open Run

def patient : Session :=
  { session three with roundLimit := 2 }

/-- The unit and its parent take a call each. Where the parent is wanted anew, three fields are
lacking in all, of which two are fetched and one is found in the cache. -/
theorem costs_overlapping :
    (∃ entity after, patient.getWith cls "3" twice {} = .ok entity after ∧
      after.lastRun = ⟨2, 2, 0⟩ ∧ Session.Accounts 0 {} after) ∧
    ∃ ended, Leaves patient.context (Demand.runWithin 2 overlapping) { calls := [] } ended ∧
      ended.stats = ⟨2, 2, 1⟩ ∧
      Target.lacking (spawnedInRun patient.context 2 overlapping { calls := [] }) = 3 ∧
      ended.stats.rounds + ended.stats.cacheHits ≤
        Target.lacking (spawnedInRun patient.context 2 overlapping { calls := [] }) := by
  have leaves : Leaves patient.context (Demand.runWithin 2 overlapping) { calls := [] } _ :=
    .inl ⟨⟨2, 2, 1⟩, rfl⟩
  obtain ⟨entities, _, _, _, _, bounded⟩ := patient.costs_of_requests
  refine ⟨⟨_, _, rfl, rfl, (entities cls "3" twice).2 _ _ _ rfl⟩, _, leaves, rfl, rfl, ?_⟩
  refine bounded overlapping 2 [] _ (fun demand member => ?_) leaves
  obtain ⟨_, _, rfl, distinct, _⟩ := of_mem_overlapping member
  exact distinct

end Units

end EntityResolver
