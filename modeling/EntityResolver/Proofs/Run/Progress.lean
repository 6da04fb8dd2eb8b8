import EntityResolver.Proofs.Run.Rounds
import EntityResolver.Proofs.Run.Termination

/-!
What a round needs so as not to fail: a getter for the first pool, a fetch that succeeds, and an
answer for every target that the fetch was made for. The rest of a round never fails.
-/

set_option autoImplicit false

namespace EntityResolver

/-- No pool is empty, and every target lacks some field. -/
def RunState.Lively (pools : List (ClassId × List Target)) : Prop :=
  ∀ cls pool, (cls, pool) ∈ pools → pool ≠ [] ∧ ∀ target ∈ pool, target.isActive = true

namespace Run

variable {context : RunContext} {before : RunState} {target : Target} {path : String}
variable {names : List String} {results : FetchResults}

theorem lively_prune (pools : List (ClassId × List Target)) : RunState.Lively (prune pools) := by
  intro cls pool member
  obtain ⟨inMap, kept⟩ := List.mem_filter.mp member
  obtain ⟨⟨_, old⟩, _, same⟩ := List.mem_map.mp inMap
  cases same
  refine ⟨by simpa using kept, ?_⟩
  intro target inPool
  exact List.of_mem_filter inPool

theorem lively_addToPool {pools : List (ClassId × List Target)} (lively : RunState.Lively pools)
    (active : target.isActive = true) : RunState.Lively (addToPool target pools) := by
  induction pools with
  | nil =>
      intro cls pool member
      cases List.mem_singleton.mp member
      exact ⟨by simp, by simpa using active⟩
  | cons entry rest inductionHypothesis =>
      obtain ⟨first, firstPool⟩ := entry
      have head := lively first firstPool List.mem_cons_self
      have livelyRest : RunState.Lively rest := fun cls pool member =>
        lively cls pool (List.mem_cons_of_mem _ member)
      intro cls pool member
      simp only [addToPool] at member
      split at member
      · rcases List.mem_cons.mp member with here | inRest
        · cases here
          refine ⟨by simp, ?_⟩
          intro other inPool
          rcases List.mem_append.mp inPool with old | new
          · exact head.2 other old
          · rw [List.mem_singleton.mp new]
            exact active
        · exact livelyRest cls pool inRest
      · rcases List.mem_cons.mp member with here | inRest
        · cases here
          exact head
        · exact inductionHypothesis livelyRest cls pool inRest

theorem lively_filled (lively : RunState.Lively before.pools) :
    RunState.Lively before.filled.pools := by
  have fold (targets : List Target) (active : ∀ target ∈ targets, target.isActive = true)
      {pools : List (ClassId × List Target)} (lively : RunState.Lively pools) :
      RunState.Lively (targets.foldl (fun pools target => addToPool target pools) pools) := by
    induction targets generalizing pools with
    | nil => exact lively
    | cons target rest inductionHypothesis =>
        apply inductionHypothesis
        · intro other member
          exact active other (List.mem_cons_of_mem _ member)
        · exact lively_addToPool lively (active target List.mem_cons_self)
  apply fold _ _ lively
  intro target member
  exact List.of_mem_filter member

theorem exists_candidacy {getter : Getter} {pool : List Target}
    (valid : ∀ target ∈ pool, target.WellFormed) (member : target ∈ pool)
    (isOpen : target.openAmong getter.supplied ≠ []) :
    ∃ candidacy, getter.candidacy? pool = some candidacy := by
  have single (supplied : List String) (isOpen : target.openAmong supplied ≠ []) :
      ∃ candidacy, Candidacy.ofSingle supplied pool = some candidacy := by
    unfold Candidacy.ofSingle
    split
    · rename_i nothing
      have head := Candidacy.head_choose (fun target => !(target.openAmong supplied).isEmpty)
        (some 1) 0 pool
      rw [nothing] at head
      have none := List.find?_eq_none.mp head.symm target member
      simp [isOpen] at none
    · exact ⟨_, rfl⟩
  have batch (supplied : List String) (limit : Option Nat) (repeatIds : Bool)
      (isOpen : target.openAmong supplied ≠ []) :
      ∃ candidacy, Candidacy.ofBatch supplied limit repeatIds pool = some candidacy := by
    cases batch : Candidacy.batchOf supplied limit pool with
    | cons entry rest =>
        rw [Candidacy.ofBatch, batch]
        exact ⟨_, rfl⟩
    | nil =>
        unfold Candidacy.batchOf at batch
        split at batch
        · rename_i unknown
          have none := List.find?_eq_none.mp unknown target member
          simp [isOpen] at none
        · rename_i first found
          have head := Candidacy.head_choose (fun target =>
            !(target.openAmong supplied).isEmpty && target.isAlike first) limit 0 pool
          rw [batch] at head
          have inPool := List.mem_of_find?_eq_some found
          have openFirst := List.find?_some found
          have none := List.find?_eq_none.mp head.symm first inPool
          simp only [Target.isAlike_refl (valid first inPool), openFirst] at none
          exact absurd rfl none
  cases getter with
  | single method => exact single _ isOpen
  | batch method => exact batch _ _ _ isOpen
  | table method => exact batch _ _ _ isOpen

theorem exists_bestCandidacy {pool : List Target} {getters : List Getter} {getter : Getter}
    {candidacy : Candidacy} (member : getter ∈ getters)
    (offered : getter.candidacy? pool = some candidacy) :
    ∃ best, bestCandidacy? pool getters = some best := by
  induction getters with
  | nil => cases member
  | cons head rest inductionHypothesis =>
      simp only [bestCandidacy?]
      split
      · rename_i refused
        rcases List.mem_cons.mp member with rfl | inRest
        · cases refused.symm.trans offered
        · exact inductionHypothesis inRest
      · exact ⟨_, rfl⟩
      · split
        · exact ⟨_, rfl⟩
        · exact ⟨_, rfl⟩

theorem succeeds_resolveFetched {values : FieldValues}
    (given : ∀ name ∈ names, ∃ value, values.get? name = some value) (target : Target)
    (state : RunState) : Succeeds context (resolveFetched path values names target) state := by
  induction names generalizing target state with
  | nil => exact ⟨_, _, yields_pure_iff.mpr ⟨rfl, rfl⟩⟩
  | cons name rest inductionHypothesis =>
      have givenRest := fun other member => given other (List.mem_cons_of_mem name member)
      simp only [resolveFetched]
      split
      · obtain ⟨value, found⟩ := given name List.mem_cons_self
        simp only [found]
        apply succeeds_bind (yields_resolveAndCache_iff.mpr ⟨rfl, rfl⟩)
        exact inductionHypothesis givenRest _ _
      · exact inductionHypothesis givenRest _ _

/-- What a call says of the entity of a target lets the target be settled. -/
def Settleable (names : List String) (results : FetchResults) (target : Target) : Prop :=
  match results.get? target.id with
  | some (.found values) => ∀ name ∈ names, ∃ value, values.get? name = some value
  | some .absent | none => target.isWeak = true

theorem succeeds_settle (settleable : Settleable names results target) (state : RunState) :
    Succeeds context (settle path names results target) state := by
  unfold Settleable at settleable
  unfold settle
  split
  · rename_i values found
    simp only [found] at settleable
    exact succeeds_resolveFetched settleable target state
  · rename_i found
    simp only [found] at settleable
    exact ⟨_, _, yields_giveUp_iff.mpr ⟨settleable, rfl, rfl⟩⟩
  · rename_i found
    simp only [found] at settleable
    exact ⟨_, _, yields_giveUp_iff.mpr ⟨settleable, rfl, rfl⟩⟩

theorem succeeds_settleChosen {chosen : List Nat} {position : Nat} {pool : List Target}
    (settleable : ∀ (index : Nat) target, pool[index]? = some target → position + index ∈ chosen →
      Settleable names results target) (state : RunState) :
    Succeeds context (settleChosen path names results chosen position pool) state := by
  induction pool generalizing position state with
  | nil => exact ⟨_, _, yields_pure_iff.mpr ⟨rfl, rfl⟩⟩
  | cons target rest inductionHypothesis =>
      have first : Succeeds context (settleAt path names results chosen position target) state := by
        unfold settleAt
        split
        · rename_i isChosen
          exact succeeds_settle (settleable 0 target rfl (by simpa using isChosen)) state
        · exact ⟨_, _, yields_pure_iff.mpr ⟨rfl, rfl⟩⟩
      obtain ⟨settled, middle, first⟩ := first
      have remaining : Succeeds context
          (settleChosen path names results chosen (position + 1) rest) middle := by
        apply inductionHypothesis
        intro index other found isChosen
        apply settleable (index + 1) other found
        rwa [Nat.add_right_comm, Nat.add_assoc] at isChosen
      obtain ⟨others, after, remaining⟩ := remaining
      rw [settleChosen_cons]
      apply succeeds_bind first
      apply succeeds_bind remaining
      exact ⟨_, _, yields_pure_iff.mpr ⟨rfl, rfl⟩⟩

theorem yields_modify (change : RunState → RunState) (state : RunState) :
    Yields context (modify change) state ⟨⟩ (change state) :=
  yields_modify_iff.mpr rfl

theorem succeeds_resolveCached (served : List (String × FieldValue String)) (target : Target)
    (state : RunState) : Succeeds context (resolveCached served target) state := by
  induction served generalizing target state with
  | nil => exact ⟨_, _, yields_pure_iff.mpr ⟨rfl, rfl⟩⟩
  | cons entry rest inductionHypothesis =>
      obtain ⟨name, value⟩ := entry
      simp only [resolveCached]
      apply succeeds_bind (yields_schema_iff.mpr ⟨rfl, rfl⟩)
      split
      · exact inductionHypothesis _ _
      · rename_i field _
        obtain ⟨restored, middle, traversed⟩ := succeeds_traverseEntities
          (fun id state => ⟨_, _, yields_alloc_iff.mpr ⟨rfl, rfl⟩⟩) value state
        apply succeeds_bind traversed
        apply succeeds_bind (yields_resolve_iff.mpr ⟨rfl, rfl⟩)
        apply succeeds_bind (yields_modify _ _)
        exact inductionHypothesis _ _

theorem succeeds_sweepPool (pool : List Target) (state : RunState) :
    Succeeds context (sweepPool pool) state := by
  induction pool generalizing state with
  | nil => exact ⟨_, _, yields_pure_iff.mpr ⟨rfl, rfl⟩⟩
  | cons target rest inductionHypothesis =>
      have head : Succeeds context (resolveCached (servable state target) target) state :=
        succeeds_resolveCached _ _ _
      obtain ⟨continued, middle, first⟩ := head
      obtain ⟨others, after, remaining⟩ := inductionHypothesis middle
      apply succeeds_bind (yields_get_iff.mpr ⟨rfl, rfl⟩)
      apply succeeds_bind first
      apply succeeds_bind remaining
      exact ⟨_, _, yields_pure_iff.mpr ⟨rfl, rfl⟩⟩

theorem succeeds_sweepPools (pools : List (ClassId × List Target)) (state : RunState) :
    Succeeds context (sweepPools pools) state := by
  induction pools generalizing state with
  | nil => exact ⟨_, _, yields_pure_iff.mpr ⟨rfl, rfl⟩⟩
  | cons entry rest inductionHypothesis =>
      obtain ⟨cls, pool⟩ := entry
      have head : Succeeds context (sweepPool pool) state := succeeds_sweepPool _ _
      obtain ⟨swept, middle, first⟩ := head
      obtain ⟨others, after, remaining⟩ := inductionHypothesis middle
      apply succeeds_bind first
      apply succeeds_bind remaining
      exact ⟨_, _, yields_pure_iff.mpr ⟨rfl, rfl⟩⟩

theorem succeeds_round {cls : ClassId} {pool : List Target} {others : List (ClassId × List Target)}
    {getter : Getter} {candidacy : Candidacy} {fetched : RunState}
    (first : before.pools = (cls, pool) :: others)
    (best : bestCandidacy? pool (context.catalog.gettersOf cls) = some (getter, candidacy))
    (fetches : Yields context (getter.fetch candidacy) { before.counted with pools := others }
      results fetched)
    (settleable : ∀ (index : Nat) target, pool[index]? = some target →
      index ∈ candidacy.chosen → Settleable candidacy.selector.names results target) :
    Succeeds context round before := by
  have settles : Succeeds context
      (settleChosen getter.path candidacy.selector.names results candidacy.chosen 0 pool) fetched := by
    apply succeeds_settleChosen
    intro index target found chosen
    exact settleable index target found (by simpa using chosen)
  obtain ⟨settled, last, settles⟩ := settles
  let served : RunState := { last with pools := last.pools ++ prune [(cls, settled)] }
  have service : Service context before.counted served :=
    { cls, pool, others, getter, candidacy, results, fetched, settled, last, first, best, fetches,
      settles
      ends := rfl }
  have sweeps : Succeeds context (sweepPools served.filled.pools) served.filled :=
    succeeds_sweepPools _ _
  obtain ⟨swept, final, sweeps⟩ := sweeps
  exact ⟨_, _, yields_round service sweeps⟩

/-- Rounds that never fail, and that come to an end, succeed. -/
theorem yields_rounds_of_roundsEnd {invariant : RunState → Prop}
    (roundsEnd : RoundsEnd context before)
    (step : ∀ {state}, invariant state → state.pools ≠ [] → ∃ after,
      Yields context round state () after ∧ invariant after) (start : invariant before) :
    ∃ enough after, Yields context (rounds enough) before true after ∧
      ∀ limit, enough ≤ limit → rounds limit context before = .ok true after := by
  have goes (limit : Nat) {state : RunState} (holds : invariant state) :
      Succeeds context (rounds limit) state := by
    induction limit generalizing state with
    | zero => exact ⟨_, _, yields_bind_iff.mpr ⟨_, _, yields_get_iff.mpr ⟨rfl, rfl⟩,
        yields_pure_iff.mpr ⟨rfl, rfl⟩⟩⟩
    | succ limit inductionHypothesis =>
        by_cases empty : state.pools = []
        · exact ⟨_, _, rounds_of_isEmpty empty (limit + 1)⟩
        · obtain ⟨middle, first, holdsMiddle⟩ := step holds empty
          obtain ⟨isDone, after, remaining⟩ := inductionHypothesis holdsMiddle
          refine ⟨isDone, after, ?_⟩
          rw [Yields, rounds_succ empty]
          exact yields_bind_iff.mpr ⟨_, _, first, remaining⟩
  obtain ⟨enough, final, stable⟩ := roundsEnd
  obtain ⟨isDone, after, done⟩ := goes enough start
  cases isDone with
  | false => exact absurd done (final after)
  | true =>
      refine ⟨enough, after, done, ?_⟩
      intro limit more
      rw [stable limit more]
      exact done

end Run

end EntityResolver
