import EntityResolver.Proofs.Run.Composed
import EntityResolver.Proofs.Run.Conclusion
import EntityResolver.Proofs.Run.Reachable
import Mathlib.Logic.Relation

/-!
How a run fails.

What goes before the first round does not fail as only rounds do. A round fails where no getter
offers to serve its first pool, where the best offer cannot be fetched, or where what is fetched
cannot be settled; the rest of it never fails.
-/

set_option autoImplicit false

namespace EntityResolver.Run

variable {context : RunContext} {before middle after : RunState} {target : Target}

/-- The step fails with the error. -/
def Fails {α : Type} (context : RunContext) (step : Run α) (before : RunState)
    (error : ResolveError) : Prop :=
  ∃ after, step context before = .error error after

variable {α β : Type} {error : ResolveError}

theorem fails_bind_iff {step : Run α} {next : α → Run β} :
    Fails context (step >>= next) before error ↔ Fails context step before error ∨
      ∃ value middle, Yields context step before value middle ∧
        Fails context (next value) middle error := by
  cases outcome : step context before with
  | ok value middle =>
      constructor
      · rintro ⟨after, failed⟩
        rw [Yields.bind outcome] at failed
        exact .inr ⟨value, middle, outcome, after, failed⟩
      · rintro (⟨after, failed⟩ | ⟨other, state, first, after, failed⟩)
        · cases outcome.symm.trans failed
        · obtain ⟨rfl, rfl⟩ := Yields.unique outcome first
          exact ⟨after, by rw [Yields.bind outcome, failed]⟩
  | error raised middle =>
      constructor
      · rintro ⟨after, failed⟩
        rw [bind_of_error outcome] at failed
        cases failed
        exact .inl ⟨middle, outcome⟩
      · rintro (⟨after, failed⟩ | ⟨other, state, first, _⟩)
        · exact ⟨after, bind_of_error failed next⟩
        · cases outcome.symm.trans first

theorem not_fails_of_succeeds {step : Run α} (succeeds : Succeeds context step before) :
    ¬ Fails context step before error := by
  rintro ⟨after, failed⟩
  obtain ⟨result, ended, done⟩ := succeeds
  cases Eq.trans (Eq.symm done) failed

@[simp] theorem not_fails_pure {value : α} : ¬ Fails context (pure value) before error :=
  not_fails_of_succeeds ⟨value, before, rfl⟩

@[simp] theorem not_fails_get : ¬ Fails context get before error :=
  not_fails_of_succeeds ⟨before, before, rfl⟩

@[simp] theorem not_fails_modify {change : RunState → RunState} :
    ¬ Fails context (modify change) before error :=
  not_fails_of_succeeds ⟨⟨⟩, change before, rfl⟩

@[simp] theorem not_fails_read : ¬ Fails context read before error :=
  not_fails_of_succeeds ⟨context, before, rfl⟩

@[simp] theorem not_fails_className {cls : ClassId} :
    ¬ Fails context (className cls) before error :=
  not_fails_of_succeeds ⟨context.catalog.schema.className cls, before, rfl⟩

@[simp] theorem fails_throw_iff {raised : ResolveError} :
    Fails context (throw raised : Run α) before error ↔ error = raised := by
  constructor
  · rintro ⟨after, failed⟩
    cases failed
    rfl
  · rintro rfl
    exact ⟨before, rfl⟩

def FailsPlainly (step : Run α) : Prop :=
  ∀ context before error, Fails context step before error → error.isOfRound = false

theorem failsPlainly_of_succeeds {step : Run α}
    (succeeds : ∀ context before, Succeeds context step before) : FailsPlainly step :=
  fun context before _ failed => absurd failed (not_fails_of_succeeds (succeeds context before))

theorem closedUnderSteps_failsPlainly : ClosedUnderSteps .everything FailsPlainly where
  pure _ _ _ _ failed := absurd failed not_fails_pure
  bind first rest _ _ _ failed := by
    rcases fails_bind_iff.mp failed with failed | ⟨value, _, _, failed⟩
    · exact first _ _ _ failed
    · exact rest value _ _ _ failed
  throw plain _ _ _ failed :=
    fails_throw_iff.mp failed ▸ ResolveError.isOfRound_of_isPlain plain
  read next context before _ failed := next context trivial context before _ failed
  spawn _ _ _ _ := failsPlainly_of_succeeds fun _ _ => succeeds_spawn _ _ _ _ _ _
  alloc _ _ _ := failsPlainly_of_succeeds fun _ _ => ⟨_, _, yields_alloc_iff.mpr ⟨rfl, rfl⟩⟩

theorem closed_failsPlainly : ClosedUnderBeginning .everything FailsPlainly where
  toClosedUnderReading := closedUnderSteps_failsPlainly.reading
    fun _ _ _ failed => fails_throw_iff.mp failed ▸ rfl
  call _ _ := failsPlainly_of_succeeds fun _ _ => ⟨_, _, yields_call_iff.mpr ⟨rfl, rfl⟩⟩
  get _ _ _ failed := absurd failed not_fails_get
  root _ _ _ _ _ := failsPlainly_of_succeeds fun _ _ => succeeds_spawn _ _ _ _ _ _
  arrange _ _ _ _ _ failed := absurd failed not_fails_modify

theorem fails_prepare_iff : Fails context prepare before error ↔
    Fails context (satisfyAll before.prerequisites) { before with prerequisites := [] } error := by
  simp only [prepare, fails_bind_iff, not_fails_get, not_fails_modify, poolSpawned, false_or,
    and_false, exists_false, or_false, yields_get_iff, yields_modify_iff]
  constructor
  · rintro ⟨_, _, ⟨rfl, rfl⟩, _, _, rfl, failed⟩
    exact failed
  · exact fun failed => ⟨_, before, ⟨rfl, rfl⟩, ⟨⟩, _, rfl, failed⟩

theorem plain_of_begun {demands : List Demand}
    (failed : Fails context (do Demand.placeAll demands; prepare) before error) :
    error.isOfRound = false := by
  rcases fails_bind_iff.mp failed with failed | ⟨_, _, _, failed⟩
  · exact closed_failsPlainly.placeAll (fun _ _ => Scope.places_everything _) _ _ _ failed
  · exact closed_failsPlainly.satisfyAll (fun _ _ _ _ => Scope.finds_everything _ _) _ _ _
      (fails_prepare_iff.mp failed)

inductive RoundFailure (context : RunContext) (before : RunState)
    (error : ResolveError) : Prop where
  | unserved {cls : ClassId} {pool : List Target} {others : List (ClassId × List Target)}
      (first : before.pools = (cls, pool) :: others)
      (none : bestCandidacy? pool (context.catalog.gettersOf cls) = none)
      (raised : error =
        .noApplicableMethod (context.catalog.schema.className cls) (openFields pool))
  | unfetched {cls : ClassId} {pool : List Target} {others : List (ClassId × List Target)}
      {getter : Getter} {candidacy : Candidacy} (first : before.pools = (cls, pool) :: others)
      (best : bestCandidacy? pool (context.catalog.gettersOf cls) = some (getter, candidacy))
      (fails : Fails context (getter.fetch candidacy) { before.counted with pools := others } error)
  | unsettled {cls : ClassId} {pool : List Target} {others : List (ClassId × List Target)}
      {getter : Getter} {candidacy : Candidacy} {results : FetchResults} {fetched : RunState}
      (first : before.pools = (cls, pool) :: others)
      (best : bestCandidacy? pool (context.catalog.gettersOf cls) = some (getter, candidacy))
      (fetches : Yields context (getter.fetch candidacy) { before.counted with pools := others }
        results fetched)
      (fails : Fails context (settleChosen getter.path candidacy.selector.names results
        candidacy.chosen 0 pool) fetched error)

theorem roundFailure_of_fails (failed : Fails context round before error) :
    RoundFailure context before error := by
  have serves : Fails context serveFirst before.counted error := by
    change Fails context (serveFirst >>= _) before.counted error at failed
    rcases fails_bind_iff.mp failed with failed | ⟨_, middle, _, failed⟩
    · exact failed
    · change Fails context (sweepPools middle.filled.pools >>= _) middle.filled error at failed
      rcases fails_bind_iff.mp failed with failed | ⟨_, _, _, failed⟩
      · exact absurd failed (not_fails_of_succeeds (succeeds_sweepPools _ _))
      · exact absurd failed not_fails_modify
  simp only [serveFirst, fails_bind_iff, not_fails_get, false_or, yields_get_iff] at serves
  obtain ⟨_, _, ⟨rfl, rfl⟩, serves⟩ := serves
  split at serves
  · exact absurd serves not_fails_pure
  · rename_i cls pool others first
    simp only [fails_bind_iff, not_fails_modify, false_or, yields_modify_iff, not_fails_read,
      yields_read_iff] at serves
    obtain ⟨_, _, rfl, given, _, ⟨same, rfl⟩, serves⟩ := serves
    subst given
    split at serves
    · rename_i none
      simp only [fails_bind_iff, not_fails_className, false_or, fails_throw_iff,
        yields_className_iff] at serves
      obtain ⟨_, _, ⟨rfl, _⟩, raised⟩ := serves
      exact .unserved first none raised
    · rename_i getter candidacy best
      simp only [fails_bind_iff, not_fails_modify, and_false, exists_false, or_false] at serves
      rcases serves with failed | ⟨results, fetched, fetches, failed⟩
      · exact .unfetched first best failed
      · exact .unsettled first best fetches failed

/-- The run comes from one state to the other by whole rounds. -/
def Passes (context : RunContext) : RunState → RunState → Prop :=
  Relation.ReflTransGen fun before after =>
    before.pools ≠ [] ∧ Yields context round before () after

theorem passes_of_rounds {limit : Nat} {isDone : Bool}
    (done : Yields context (rounds limit) before isDone after) :
    Passes context before after ∧ (isDone = true → after.pools = []) := by
  induction limit generalizing before with
  | zero =>
      simp only [rounds, yields_bind_iff, yields_get_iff, yields_pure_iff] at done
      obtain ⟨_, _, ⟨rfl, rfl⟩, rfl, rfl⟩ := done
      exact ⟨.refl, List.isEmpty_iff.mp⟩
  | succ limit inductionHypothesis =>
      by_cases empty : before.pools = []
      · rw [Yields, rounds_of_isEmpty empty] at done
        cases done
        exact ⟨.refl, fun _ => empty⟩
      · rw [Yields, rounds_succ empty] at done
        obtain ⟨_, middle, first, remaining⟩ := yields_bind_iff.mp done
        obtain ⟨passes, ends⟩ := inductionHypothesis remaining
        exact ⟨.head ⟨empty, first⟩ passes, ends⟩

theorem Passes.rounds (passes : Passes context before after) :
    ∃ count, ∀ limit, rounds (count + limit) context before = rounds limit context after := by
  induction passes using Relation.ReflTransGen.head_induction_on with
  | refl => exact ⟨0, fun limit => by rw [Nat.zero_add]⟩
  | head first _ inductionHypothesis =>
      obtain ⟨count, same⟩ := inductionHypothesis
      refine ⟨count + 1, fun limit => ?_⟩
      rw [Nat.add_right_comm, rounds_succ first.1, first.2.bind, same]

theorem Passes.reachable (passes : Passes context before after)
    (reached : Reachable context before) :
    Reachable context after := by
  induction passes with
  | refl => exact reached
  | tail _ last inductionHypothesis => exact inductionHypothesis.round.yields last.2

theorem Passes.waits {fits : Target → Prop} (passes : Passes context before after)
    (persists : Persists context fits) (waits : Waits fits before) : Waits fits after := by
  induction passes with
  | refl => exact waits
  | tail _ last inductionHypothesis => exact persists.round inductionHypothesis last.1 last.2

theorem Passes.toEnd {final : RunState} (passes : Passes context before middle)
    (ends : Passes context before final)
    (empty : final.pools = []) : Passes context middle final := by
  induction passes using Relation.ReflTransGen.head_induction_on with
  | refl => exact ends
  | head first _ inductionHypothesis =>
      rcases Relation.ReflTransGen.cases_head ends with same | ⟨next, second, remaining⟩
      · exact absurd (same ▸ empty) first.1
      · obtain ⟨_, rfl⟩ := first.2.unique second.2
        exact inductionHypothesis remaining

theorem fails_of_rounds {limit : Nat} (failed : Fails context (rounds limit) before error) :
    ∃ state, Passes context before state ∧ Fails context round state error := by
  induction limit generalizing before with
  | zero => exact absurd failed (not_fails_of_succeeds ⟨_, before, rfl⟩)
  | succ limit inductionHypothesis =>
      by_cases empty : before.pools = []
      · have idle : Yields context (rounds (limit + 1)) before true before :=
          rounds_of_isEmpty empty _
        exact absurd failed (not_fails_of_succeeds idle.succeeds)
      · unfold Fails at failed
        rw [rounds_succ empty] at failed
        rcases fails_bind_iff.mp failed with failed | ⟨_, middle, first, failed⟩
        · exact ⟨before, .refl, failed⟩
        · obtain ⟨state, passes, fails⟩ := inductionHypothesis failed
          exact ⟨state, .head ⟨empty, first⟩ passes, fails⟩

theorem fails_of_run {demands : List Demand} {limit : Nat} {earlier : List Call}
    (failed : Fails context (Demand.runWithin limit demands) { calls := earlier } error)
    (ofRound : error.isOfRound = true) : error = .tooManyRounds limit ∨ ∃ ready state,
      Yields context (do Demand.placeAll demands; prepare) { calls := earlier } () ready ∧
      Passes context ready state ∧ Fails context round state error := by
  rw [runWithin_eq] at failed
  rcases fails_bind_iff.mp failed with failed | ⟨_, ready, begun, failed⟩
  · cases ofRound.symm.trans (plain_of_begun failed)
  · rcases fails_bind_iff.mp failed with failed | ⟨isDone, _, _, failed⟩
    · obtain ⟨state, passes, fails⟩ := fails_of_rounds failed
      exact .inr ⟨ready, state, begun, passes, fails⟩
    · cases isDone with
      | true => exact absurd failed (not_fails_of_succeeds ⟨_, _, rfl⟩)
      | false => exact .inl (fails_throw_iff.mp failed)

end EntityResolver.Run
