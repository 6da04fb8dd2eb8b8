import EntityResolver.Proofs.Run.Extending
import EntityResolver.Proofs.Run.Failures
import EntityResolver.Proofs.Run.Steady

/-!
Entities that a method reports to be absent.

A round loses the ids of those entities of which its fetch says that they do not exist, and of no
others. A target that is strong cannot be given up; it was spawned so, or has had a field resolved.
-/

set_option autoImplicit false

namespace EntityResolver

/-- The call says nothing of the id but, perhaps, that its entity does not exist. -/
def FetchResults.Denies (results : FetchResults) (id : String) : Prop :=
  ∀ values, results.get? id ≠ some (.found values)

namespace Run

open RunState

variable {context : RunContext} {before middle after : RunState} {target continued : Target}
variable {path : String} {names : List String} {results : FetchResults} {chosen : List Nat}

theorem extends_resolveFetched {values : FieldValues} (spawned : before.Spawned target.entity)
    (done : Yields context (resolveFetched path values names target) before continued after) :
    before.Extends after := by
  have met : Meets context (resolveFetched path values names target) before
      (fun continued after => target.Continues continued ∧ before.Extends after) before.Extends := by
    refine meets_resolveFetched (fun continues _ _ _ extended => ?_) (.refl before)
    exact extended.trans
      (extends_learned _ (continues.entity ▸ spawned_of_extends spawned extended))
  exact (met.yields done).2

theorem loses_settle (spawned : before.Spawned target.entity)
    (done : Yields context (settle path names results target) before continued after) :
    Loses (fun entity => entity = target.entity ∧ results.Denies target.id) before after ∧
      (results.Denies target.id → target.isWeak = true) := by
  have given (denies : results.Denies target.id)
      (done : Yields context (giveUp target) before continued after) :
      Loses (fun entity => entity = target.entity ∧ results.Denies target.id) before after ∧
        (results.Denies target.id → target.isWeak = true) := by
    obtain ⟨isWeak, _, rfl⟩ := yields_giveUp_iff.mp done
    exact ⟨(loses_forgotten spawned).congr fun _ => and_iff_left denies, fun _ => isWeak⟩
  unfold settle at done
  split at done
  · rename_i values found
    have holds : ¬ results.Denies target.id := fun denies => denies values found
    exact ⟨(extends_resolveFetched spawned done).congr fun _ => by simp [holds],
      fun denies => absurd denies holds⟩
  · rename_i absent
    exact given (fun values found => by simp [absent] at found) done
  · rename_i silent
    exact given (fun values found => by simp [silent] at found) done

/-- Of the chosen targets those are lost that are denied, and all of these are weak. -/
theorem loses_settleChosen {position : Nat} {pool settled : List Target}
    (spawned : ∀ target ∈ pool, before.Spawned target.entity)
    (done : Yields context (settleChosen path names results chosen position pool) before settled
      after) :
    Loses (fun entity => ∃ index target, pool[index]? = some target ∧
        position + index ∈ chosen ∧ results.Denies target.id ∧
          entity = target.entity) before after ∧
      ∀ (index : Nat) target, pool[index]? = some target → position + index ∈ chosen →
        results.Denies target.id → target.isWeak = true := by
  induction pool generalizing position before settled with
  | nil =>
      obtain ⟨rfl, rfl⟩ := yields_pure_iff.mp done
      exact ⟨(Loses.refl _).congr (by simp), by simp⟩
  | cons target rest inductionHypothesis =>
      rw [settleChosen_cons] at done
      simp only [yields_bind_iff, yields_pure_iff] at done
      obtain ⟨continued, middle, first, others, _, remaining, rfl, rfl⟩ := done
      have here : Loses (fun entity => position ∈ chosen ∧ entity = target.entity ∧
            results.Denies target.id) before middle ∧
          (position ∈ chosen → results.Denies target.id → target.isWeak = true) := by
        unfold settleAt at first
        split at first
        · rename_i isChosen
          have member : position ∈ chosen := by simpa using isChosen
          obtain ⟨loses, weak⟩ := loses_settle (spawned target List.mem_cons_self) first
          exact ⟨loses.congr fun _ => and_iff_right member, fun _ => weak⟩
        · rename_i other
          have noMember : position ∉ chosen := by simpa using other
          obtain ⟨rfl, rfl⟩ := yields_pure_iff.mp first
          exact ⟨(Loses.refl _).congr (by simp [noMember]), fun member => absurd member noMember⟩
      obtain ⟨loses, weak⟩ := here
      obtain ⟨losesToo, weakToo⟩ := inductionHypothesis (fun other member =>
        spawned_of_extends (spawned other (List.mem_cons_of_mem _ member)) loses) remaining
      have shift (index : Nat) : position + 1 + index = position + (index + 1) := by omega
      refine ⟨(loses.trans losesToo).congr fun entity => ?_, fun index other found isChosen => ?_⟩
      · constructor
        · rintro ⟨index, other, found, isChosen, denies, rfl⟩
          cases index with
          | zero =>
              cases found
              exact .inl ⟨isChosen, rfl, denies⟩
          | succ index => exact .inr ⟨index, other, found, shift index ▸ isChosen, denies, rfl⟩
        · rintro (⟨isChosen, rfl, denies⟩ | ⟨index, other, found, isChosen, denies, rfl⟩)
          · exact ⟨0, target, rfl, isChosen, denies, rfl⟩
          · exact ⟨index + 1, other, found, shift index ▸ isChosen, denies, rfl⟩
      · cases index with
        | zero =>
            cases found
            exact weak isChosen
        | succ index => exact weakToo index other found (shift index ▸ isChosen)

theorem extends_sweepPools {pools swept : List (ClassId × List Target)}
    (spawned : ∀ target ∈ pools.flatMap Prod.snd, before.Spawned target.entity)
    (done : Yields context (sweepPools pools) before swept after) : before.Extends after := by
  have restores : ∀ target ∈ pools.flatMap Prod.snd, Restores context before.Extends target := by
    intro target member earlier state restored continued name field kept value _ _ continues _
      extended traversed
    have traverses : state.Extends restored := (yields_traverseEntities (fun _ => True) Extends
      (fun _ _ _ => True) .refl .trans (fun _ found => found)
      (fun _ _ done => ⟨trivial, (closed_extending.alloc _ _ _).yields done, trivial⟩) trivial
      traversed).2.1
    have all := extended.trans traverses
    have stores : restored.Extends (restored.stored .cache continued name value) :=
      extends_stored (continues.entity ▸ spawned_of_extends (spawned target member) all) .cache
    exact (all.trans stores).trans (.quiet rfl rfl rfl rfl)
  exact invariant_sweepPools restores (.refl before) done

structure Inquiry (context : RunContext) (before : RunState) where
  cls : ClassId
  pool : List Target
  others : List (ClassId × List Target)
  getter : Getter
  candidacy : Candidacy
  results : FetchResults
  fetched : RunState
  first : before.pools = (cls, pool) :: others
  best : bestCandidacy? pool (context.catalog.gettersOf cls) = some (getter, candidacy)
  fetches : Yields context (getter.fetch candidacy) { before.counted with pools := others } results
    fetched

namespace Inquiry

/-- The target is among those that the fetch is made for. -/
def Chooses (inquiry : Inquiry context before) (target : Target) : Prop :=
  ∃ index ∈ inquiry.candidacy.chosen, inquiry.pool[index]? = some target

theorem unique (one other : Inquiry context before) : one = other := by
  obtain ⟨_, _, _, _, _, _, _, first, best, fetches⟩ := one
  obtain ⟨_, _, _, _, _, _, _, firstToo, bestToo, fetchesToo⟩ := other
  cases first.symm.trans firstToo
  cases best.symm.trans bestToo
  obtain ⟨rfl, rfl⟩ := fetches.unique fetchesToo
  rfl

theorem pool_subset (inquiry : Inquiry context before) : inquiry.pool ⊆ before.pooled := by
  intro target member
  rw [RunState.pooled_of_first inquiry.first]
  exact List.mem_append_left _ member

theorem mem_pooled (inquiry : Inquiry context before) (chooses : inquiry.Chooses target) :
    target ∈ before.pooled := by
  obtain ⟨index, _, found⟩ := chooses
  exact inquiry.pool_subset (List.mem_of_getElem? found)

def ofService (service : Service context before.counted after) : Inquiry context before :=
  { service with first := service.first, fetches := service.fetches }

end Inquiry

/-- The round that begins in the state finds out that the target's entity does not exist. -/
def Denied (context : RunContext) (before : RunState) (target : Target) : Prop :=
  ∃ inquiry : Inquiry context before, inquiry.Chooses target ∧ inquiry.results.Denies target.id

/-- The state at the beginning of the fetch is as steady as the state of the round. -/
theorem steady_counted {truth : Truth context.catalog.schema} (steady : Steady truth before) :
    Steady truth before.counted :=
  ⟨steady.none, steady.classed, (steady.sound.frame before.pools before.spawned before.prerequisites
    before.outputs before.counted.stats before.calls).1⟩

/-- A round loses the ids of those entities that it finds not to exist, which must be weak. -/
theorem loses_round {truth : Truth context.catalog.schema} (faithful : Faithful context truth)
    (steady : Steady truth before) (waiting : before.pools ≠ [])
    (done : Yields context round before () after) :
    Loses (fun entity => ∃ target, Denied context before target ∧ entity = target.entity) before
        after ∧
      ∀ target, Denied context before target → target.isWeak = true := by
  obtain ⟨served, swept, last, ⟨service⟩, sweeps, rfl⟩ := round_cases waiting done
  have denied (target : Target) : Denied context before target ↔
      ∃ index ∈ service.candidacy.chosen, service.pool[index]? = some target ∧
        service.results.Denies target.id := by
    constructor
    · rintro ⟨inquiry, ⟨index, isChosen, found⟩, denies⟩
      cases inquiry.unique (.ofService service)
      exact ⟨index, isChosen, found, denies⟩
    · rintro ⟨index, isChosen, found, denies⟩
      exact ⟨.ofService service, ⟨index, isChosen, found⟩, denies⟩
  have spawned {state : RunState} {targets : List Target} (sound : Sound truth targets state)
      (target : Target) (member : target ∈ targets) : state.Spawned target.entity := by
    obtain ⟨origin, spawned, pending⟩ := sound.waits target member
    exact ⟨origin, spawned, pending.entity.symm⟩
  have pooled : before.pooled = service.pool ++ service.others.flatMap Prod.snd :=
    service.pooled_before
  have fetched : before.Extends service.fetched :=
    ((closed_extending.fetch Scope.reads_everything).yields service.fetches).reframe
      rfl rfl rfl (List.Subset.refl _) rfl rfl rfl (List.Subset.refl _)
  obtain ⟨settled, weak⟩ := loses_settleChosen (fun target member => spawned_of_extends
    (spawned steady.sound target (pooled ▸ List.mem_append_left _ member)) fetched) service.settles
  obtain ⟨soundFilled, _⟩ := (steady_counted steady).filled faithful service
  have swept_ : served.filled.Extends last := extends_sweepPools (spawned soundFilled) sweeps
  have arena : served.filled.arena = service.last.arena :=
    (congrArg RunState.arena service.ends).trans rfl
  have origins : served.filled.origins = service.last.origins :=
    (congrArg RunState.origins service.ends).trans rfl
  have outputs : served.filled.outputs = service.last.outputs :=
    (congrArg RunState.outputs service.ends).trans rfl
  have ends : service.last.Extends served.filled :=
    (Loses.refl service.last).reframe rfl rfl rfl (List.Subset.refl _) arena origins outputs
      (List.nil_subset _)
  have ended : last.Extends { last with pools := prune swept } := .quiet rfl rfl rfl rfl
  have loses := (fetched.thenLoses settled).thenExtends ((ends.trans swept_).trans ended)
  refine ⟨loses.congr fun entity => ?_, fun target isDenied => ?_⟩
  · constructor
    · rintro ⟨target, isDenied, rfl⟩
      obtain ⟨index, isChosen, found, denies⟩ := (denied target).mp isDenied
      exact ⟨index, target, found, by simpa using isChosen, denies, rfl⟩
    · rintro ⟨index, target, found, isChosen, denies, rfl⟩
      exact ⟨target, (denied target).mpr ⟨index, by simpa using isChosen, found, denies⟩, rfl⟩
  · obtain ⟨index, isChosen, found, denies⟩ := (denied target).mp isDenied
    exact weak index target found (by simpa using isChosen) denies

variable {truth : Truth context.catalog.schema} {final : RunState}

theorem Passes.steady (faithful : Faithful context truth) (steady : Steady truth before)
    (passes : Passes context before after) : Steady truth after ∧ before.Keeps after := by
  induction passes with
  | refl => exact ⟨steady, .refl _⟩
  | tail _ last inductionHypothesis =>
      obtain ⟨steadyMiddle, keeps⟩ := inductionHypothesis
      obtain ⟨steadyAfter, keepsToo⟩ := steadyMiddle.round faithful last.1 last.2
      exact ⟨steadyAfter, keeps.trans keepsToo⟩

/-- Whatever a run loses, one of its rounds has found it not to exist. -/
theorem Passes.loses (faithful : Faithful context truth) (steady : Steady truth before)
    (passes : Passes context before after) :
    ∃ lost, Loses lost before after ∧ ∀ entity, lost entity → ∃ state target,
      Passes context before state ∧ Denied context state target ∧ target.isWeak = true ∧
        entity = target.entity := by
  induction passes with
  | refl => exact ⟨_, .refl _, fun _ => False.elim⟩
  | @tail middle after passes last inductionHypothesis =>
      obtain ⟨lost, loses, denied⟩ := inductionHypothesis
      obtain ⟨losesToo, weak⟩ :=
        loses_round faithful (Passes.steady faithful steady passes).1 last.1 last.2
      refine ⟨_, loses.trans losesToo, fun entity isLost => ?_⟩
      rcases isLost with isLost | ⟨target, isDenied, rfl⟩
      · exact denied entity isLost
      · exact ⟨middle, target, passes, isDenied, weak target isDenied, rfl⟩

theorem Passes.gone (faithful : Faithful context truth) (steady : Steady truth before)
    (passes : Passes context before middle) (ends : Passes context before final)
    (empty : final.pools = []) (denied : Denied context middle target) :
    ∃ record, final.record? target.entity = some record ∧ record.id = none := by
  obtain ⟨steadyMiddle, _⟩ := passes.steady faithful steady
  obtain ⟨inquiry, chooses, _⟩ := id denied
  rcases Relation.ReflTransGen.cases_head (passes.toEnd ends empty) with same | ⟨next, first, rest⟩
  · cases (same ▸ empty).symm.trans inquiry.first
  · obtain ⟨origin, _, pending⟩ :=
      steadyMiddle.sound.waits target (inquiry.mem_pooled chooses)
    obtain ⟨values, holds⟩ := pending.holds
    obtain ⟨record, foundNext, _, isGone, _⟩ :=
      (loses_round faithful steadyMiddle first.1 first.2).1.known (pending.entity ▸ holds.record)
    have noId := isGone ⟨target, denied, rfl⟩
    obtain ⟨steadyNext, _⟩ := steadyMiddle.round faithful first.1 first.2
    obtain ⟨lost, loses, _⟩ := Passes.loses faithful steadyNext rest
    obtain ⟨later, foundFinal, _, stillGone, kept⟩ := loses.known foundNext
    refine ⟨later, foundFinal, ?_⟩
    by_cases again : lost target.entity
    · exact stillGone again
    · exact (kept again).trans noId

section Fails

variable {α : Type} {error : ResolveError}

theorem Extending.not_fails {step : Run α} (extending : Extending step)
    (failed : Fails context step before error) : error.isAbsence = false := by
  obtain ⟨after, failed⟩ := failed
  exact extending.not_absence failed

/-- The failure is that the entity of the target does not exist. -/
def Misses (context : RunContext) (target : Target) (error : ResolveError) : Prop :=
  target.isWeak = false ∧
    error = .entityNotFound (context.catalog.schema.className target.cls) target.id

theorem misses_of_giveUp (failed : Fails context (giveUp target) before error) :
    Misses context target error := by
  unfold giveUp at failed
  split at failed
  · simp only [update, fails_bind_iff, not_fails_modify, not_fails_pure, and_false, exists_false,
      or_self] at failed
  · rename_i isStrong
    simp only [fails_bind_iff, not_fails_className, false_or, yields_className_iff,
      fails_throw_iff] at failed
    obtain ⟨_, _, ⟨rfl, _⟩, same⟩ := failed
    exact ⟨by simpa using isStrong, same⟩

theorem missing_of_resolveFetched {values : FieldValues}
    (failed : Fails context (resolveFetched path values names target) before error) :
    ∃ name ∈ names, error = .missingValue path name target.id := by
  induction names generalizing before target with
  | nil => exact absurd failed not_fails_pure
  | cons name rest inductionHypothesis =>
      have later {other : Target} (same : other.id = target.id)
          (found : ∃ name ∈ rest, error = .missingValue path name other.id) :
          ∃ lacking ∈ name :: rest, error = .missingValue path lacking target.id := by
        obtain ⟨lacking, member, raised⟩ := found
        exact ⟨lacking, List.mem_cons_of_mem _ member, same ▸ raised⟩
      simp only [resolveFetched] at failed
      split at failed
      · split at failed
        · rcases fails_bind_iff.mp failed with failed | ⟨_, _, stored, failed⟩
          · exact absurd failed
              (not_fails_of_succeeds ⟨_, _, yields_resolveAndCache_iff.mpr ⟨rfl, rfl⟩⟩)
          · exact later (quiet_resolveAndCache stored).1.id (inductionHypothesis failed)
        · exact ⟨name, List.mem_cons_self, fails_throw_iff.mp failed⟩
      · exact later rfl (inductionHypothesis failed)

/-- Why a target cannot be settled: what was found of its entity lacks a field, or its entity was
found not to exist and must. -/
inductive Unsettled (context : RunContext) (path : String) (names : List String)
    (results : FetchResults) (target : Target) (error : ResolveError) : Prop where
  | lacks (name : String) (wanted : name ∈ names) (raised : error = .missingValue path name target.id)
  | misses (denies : results.Denies target.id) (misses : Misses context target error)

theorem unsettled_of_settle
    (failed : Fails context (settle path names results target) before error) :
    Unsettled context path names results target error := by
  unfold settle at failed
  split at failed
  · obtain ⟨name, wanted, raised⟩ := missing_of_resolveFetched failed
    exact .lacks name wanted raised
  · rename_i absent
    exact .misses (fun values found => by simp [absent] at found) (misses_of_giveUp failed)
  · rename_i silent
    exact .misses (fun values found => by simp [silent] at found) (misses_of_giveUp failed)

theorem unsettled_of_settleChosen {position : Nat} {pool : List Target}
    (failed : Fails context (settleChosen path names results chosen position pool) before error) :
    ∃ index target, pool[index]? = some target ∧ position + index ∈ chosen ∧
      Unsettled context path names results target error := by
  induction pool generalizing position before with
  | nil => exact absurd failed not_fails_pure
  | cons target rest inductionHypothesis =>
      rw [settleChosen_cons] at failed
      rcases fails_bind_iff.mp failed with failed | ⟨_, _, _, failed⟩
      · unfold settleAt at failed
        split at failed
        · rename_i isChosen
          exact ⟨0, target, rfl, by simpa using isChosen, unsettled_of_settle failed⟩
        · exact absurd failed not_fails_pure
      · rcases fails_bind_iff.mp failed with failed | ⟨_, _, _, failed⟩
        · obtain ⟨index, other, found, isChosen, unsettled⟩ := inductionHypothesis failed
          exact ⟨index + 1, other, found, by rwa [Nat.add_right_comm, Nat.add_assoc] at isChosen,
            unsettled⟩
        · exact absurd failed not_fails_pure

/-- A round that fails for an entity that does not exist has found that out of a strong target. -/
theorem misses_of_round (failed : Fails context round before error)
    (absence : error.isAbsence = true) :
    ∃ target, Denied context before target ∧ Misses context target error := by
  cases roundFailure_of_fails failed with
  | unserved _ _ raised =>
      cases raised
      cases absence
  | unfetched _ _ failed =>
      cases absence.symm.trans ((closed_extending.fetch Scope.reads_everything).not_fails failed)
  | @unsettled cls pool others getter candidacy results fetched first best fetches failed =>
      obtain ⟨index, target, found, isChosen, unsettled⟩ := unsettled_of_settleChosen failed
      cases unsettled with
      | lacks _ _ raised =>
          cases raised
          cases absence
      | misses denies misses =>
          let inquiry : Inquiry context before :=
            ⟨cls, pool, others, getter, candidacy, results, fetched, first, best, fetches⟩
          exact ⟨target, ⟨inquiry, ⟨index, by simpa using isChosen, found⟩, denies⟩, misses⟩

end Fails

end Run

end EntityResolver
