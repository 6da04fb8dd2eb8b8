import EntityResolver.Proofs.Conformance
import EntityResolver.Proofs.Run.Demands
import EntityResolver.Proofs.Run.Keeping
import EntityResolver.Proofs.Run.Records
import EntityResolver.Proofs.Run.Strength
import EntityResolver.Proofs.Value.Matched

/-!
What methods report.

A single getter and a batch getter say something of every id that they are asked for, so that all
entities that a run gives up have been reported to be absent.
-/

set_option autoImplicit false

namespace EntityResolver

open Run

variable {context : RunContext} {before after : RunState} {results : FetchResults}

theorem SingleGetter.keys_fetchAll {method : SingleGetter} {selector : Selector}
    {ids : List String}
    (done : Yields context (method.fetchAll selector ids) before results after) :
    OrderedMap.keys results = ids := by
  induction ids generalizing before results with
  | nil =>
      obtain ⟨rfl, rfl⟩ := yields_pure_iff.mp done
      rfl
  | cons id rest inductionHypothesis =>
      simp only [fetchAll, yields_bind_iff, yields_pure_iff] at done
      obtain ⟨outcome, _, _, others, _, remaining, rfl, rfl⟩ := done
      exact congrArg (id :: ·) (inductionHypothesis remaining)

namespace BatchGetter

variable {method : BatchGetter} {selector : Selector} {ids : List String}

theorem keys_readKeyed {records : Json}
    (done : Yields context (method.readKeyed selector records ids) before results after) :
    OrderedMap.keys results = ids := by
  induction ids generalizing before results with
  | nil =>
      obtain ⟨rfl, rfl⟩ := yields_pure_iff.mp done
      rfl
  | cons id rest inductionHypothesis =>
      have reads {outcome : FetchOutcome} {middle : RunState}
          (done : Yields context (do
            let others ← method.readKeyed selector records rest
            return (id, outcome) :: others) middle results after) :
          OrderedMap.keys results = id :: rest := by
        obtain ⟨others, _, remaining, done⟩ := yields_bind_iff.mp done
        obtain ⟨rfl, rfl⟩ := yields_pure_iff.mp done
        exact congrArg (id :: ·) (inductionHypothesis remaining)
      obtain ⟨key, _, _, done⟩ := yields_bind_iff.mp done
      dsimp only at done
      split at done
      · exact reads done
      · exact reads done
      · obtain ⟨values, _, _, done⟩ := yields_bind_iff.mp done
        exact reads done

theorem keys_readListed {spec : IdSpec} {response : Json}
    (done : Yields context (method.readListed spec ids selector response) before results after) :
    OrderedMap.keys results = ids := by
  obtain ⟨_, _, _, _, _, rfl⟩ := yields_readListed_iff.mp done
  simp [OrderedMap.keys, Function.comp_def]

theorem keys_fetchAll
    (done : Yields context (method.fetchAll ids selector) before results after) :
    OrderedMap.keys results = ids := by
  unfold fetchAll at done
  obtain ⟨_, _, _, done⟩ := yields_bind_iff.mp done
  obtain ⟨_, _, _, done⟩ := yields_bind_iff.mp done
  split at done
  · exact keys_readListed done
  · split at done
    · exact keys_readKeyed done
    · exact absurd done not_yields_throw

end BatchGetter

/-- Unless rows are served, what a fetch says is said of the ids asked for, one by one. -/
theorem Getter.keys_fetch {getter : Getter} {candidacy : Candidacy}
    (tableless : ∀ method, getter ≠ .table method)
    (done : Yields context (getter.fetch candidacy) before results after) :
    OrderedMap.keys results = candidacy.ids := by
  cases getter with
  | single method => exact SingleGetter.keys_fetchAll done
  | batch method => exact BatchGetter.keys_fetchAll done
  | table method => exact absurd rfl (tableless method)

/-- What is demanded by id need not exist, and nothing is known of it. -/
def Demand.Unsure : Demand → Prop
  | .entity _ _ _ values isWeak => values = [] ∧ isWeak = true
  | .list _ _ _ | .search _ _ _ | .currentUser _ _ => True

theorem Demand.Unsure.values {demand : Demand} (unsure : demand.Unsure) : demand.values = [] := by
  cases demand with
  | entity cls id selector values isWeak => exact unsure.1
  | list cls domain selector => rfl
  | search cls query selector => rfl
  | currentUser method selector => rfl

namespace Run

variable {target : Target} {error : ResolveError}

/-- In the round that begins in the state, a method reports that the target's entity is absent. -/
def ReportsAbsent (context : RunContext) (before : RunState) (target : Target) : Prop :=
  ∃ inquiry : Inquiry context before, inquiry.Chooses target ∧
    inquiry.results.get? target.id = some .absent

theorem ReportsAbsent.denied (reports : ReportsAbsent context before target) :
    Denied context before target := by
  obtain ⟨inquiry, chooses, absent⟩ := reports
  exact ⟨inquiry, chooses, fun values found => by simp [absent] at found⟩

theorem Inquiry.mem_ids {truth : Truth context.catalog.schema} (steady : Steady truth before)
    (inquiry : Inquiry context before) (chooses : inquiry.Chooses target) :
    target.id ∈ inquiry.candidacy.ids := by
  obtain ⟨index, isChosen, found⟩ := chooses
  have pooled : ∀ target ∈ inquiry.pool, target.WellFormed := fun _ member =>
    steady.sound.wellFormed (inquiry.pool_subset member)
  obtain ⟨first, serves⟩ := Getter.candidacy_serves pooled (mem_of_bestCandidacy inquiry.best).2
  obtain ⟨other, foundToo, _, asked⟩ := serves.chosen index isChosen
  cases found.symm.trans foundToo
  exact asked

/-- Silence is no report: what is denied has been reported, unless rows are served. -/
theorem Denied.reportsAbsent {truth : Truth context.catalog.schema} (steady : Steady truth before)
    (tableless : ∀ method, .table method ∉ context.catalog.getters)
    (denied : Denied context before target) : ReportsAbsent context before target := by
  obtain ⟨inquiry, chooses, denies⟩ := denied
  have offered := List.mem_of_mem_filter (mem_of_bestCandidacy inquiry.best).1
  have keys := inquiry.getter.keys_fetch (fun method same => tableless method (same ▸ offered))
    inquiry.fetches
  have said : target.id ∈ OrderedMap.keys inquiry.results :=
    keys ▸ inquiry.mem_ids steady chooses
  obtain ⟨⟨_, outcome⟩, member, rfl⟩ := List.mem_map.mp said
  have heard := OrderedMap.isSome_get?_of_mem member
  refine ⟨inquiry, chooses, ?_⟩
  cases found : inquiry.results.get? target.id with
  | none => simp [found] at heard
  | some outcome =>
      cases outcome with
      | found values => exact absurd found (denies values)
      | absent => rfl

def AllEarned (state : RunState) : Prop :=
  ∀ target ∈ state.spawned, Earned state target

theorem AllEarned.extends (earned : AllEarned before) (extended : before.Extends after) :
    AllEarned after := by
  intro target member
  rcases extended.spawned target member with old | strong
  · exact (earned target old).hardens (.refl _) extended.origins
  · exact fun _ => .inl strong

theorem AllEarned.place {demand : Demand} (unsure : demand.Unsure) (earned : AllEarned before)
    (done : Yields context demand.place before () after) : AllEarned after := by
  cases demand with
  | entity cls id selector values isWeak =>
      obtain ⟨rfl, rfl⟩ := unsure
      obtain ⟨entity, _, spawned, done⟩ := yields_bind_iff.mp done
      obtain ⟨_, rfl⟩ := yields_pure_iff.mp done
      obtain ⟨rfl, rfl⟩ := yields_spawn_nil_iff.mp spawned
      intro target member
      rcases List.mem_append.mp member with old | new
      · exact (earned target old).hardens (.refl _) (List.subset_cons_self _ _)
      · cases List.mem_singleton.mp (List.mem_of_mem_filter new)
        exact nofun
  | list cls domain selector =>
      simp only [Demand.place, wantList, yields_bind_iff, yields_newSlot_iff, yields_modify_iff,
        yields_pure_iff] at done
      obtain ⟨_, _, ⟨_, _, ⟨rfl, rfl⟩, _, _, rfl, rfl, rfl⟩, _, rfl⟩ := done
      exact earned
  | search cls query selector =>
      simp only [Demand.place, wantSearch, yields_bind_iff, yields_newSlot_iff, yields_modify_iff,
        yields_pure_iff] at done
      obtain ⟨_, _, ⟨_, _, ⟨rfl, rfl⟩, _, _, rfl, rfl, rfl⟩, _, rfl⟩ := done
      exact earned
  | currentUser method selector =>
      obtain ⟨user, _, loaded, done⟩ := yields_bind_iff.mp done
      obtain ⟨_, rfl⟩ := yields_pure_iff.mp done
      exact earned.extends ((closed_extending.currentUser Scope.reads_everything).yields loaded)

theorem AllEarned.placeAll {demands : List Demand} (unsure : ∀ demand ∈ demands, demand.Unsure)
    (earned : AllEarned before) (done : Yields context (Demand.placeAll demands) before () after) :
    AllEarned after := by
  induction demands generalizing before with
  | nil =>
      obtain ⟨_, rfl⟩ := yields_pure_iff.mp done
      exact earned
  | cons demand rest inductionHypothesis =>
      obtain ⟨_, middle, first, remaining⟩ := yields_bind_iff.mp done
      obtain ⟨here, unsureRest⟩ := List.forall_mem_cons.mp unsure
      exact inductionHypothesis unsureRest (earned.place here first) remaining

theorem AllEarned.satisfyAll {prerequisites : List Prerequisite} (earned : AllEarned before)
    (done : Yields context (satisfyAll prerequisites) before () after) : AllEarned after := by
  induction prerequisites generalizing before with
  | nil =>
      obtain ⟨_, rfl⟩ := yields_pure_iff.mp done
      exact earned
  | cons prerequisite rest inductionHypothesis =>
      obtain ⟨_, middle, first, remaining⟩ := yields_bind_iff.mp done
      rw [satisfy_eq] at first
      obtain ⟨entities, executed, executes, filled⟩ := yields_bind_iff.mp first
      cases yields_modify_iff.mp filled
      have earnedExecuted := earned.extends
        ((closed_extending.find fun _ _ => Scope.finds_everything _ _).yields executes)
      refine inductionHypothesis ?_ remaining
      exact earnedExecuted

/-- Before the first round all targets that wait and are strong have earned it. -/
theorem earned_of_begun {demands : List Demand} {earlier : List Call}
    (unsure : ∀ demand ∈ demands, demand.Unsure)
    (begun : Yields context (do Demand.placeAll demands; prepare) { calls := earlier } () after) :
    ∀ target ∈ after.pooled, Earned after target := by
  obtain ⟨_, placed, first, prepared⟩ := yields_bind_iff.mp begun
  obtain ⟨satisfied, satisfies, rfl⟩ := yields_prepare_iff.mp prepared
  have nothing : AllEarned { calls := earlier } := by simp [AllEarned]
  have earned := nothing.placeAll unsure first
  have earnedSatisfied : AllEarned satisfied := AllEarned.satisfyAll (by exact earned) satisfies
  -- Up to now nothing was put into the pools.
  have kept := (beginning_keeps_progress.placeAll fun _ _ => Scope.places_everything _).yields first
  have keptToo :=
    (beginning_keeps_progress.satisfyAll fun _ _ _ _ => Scope.finds_everything _ _).yields satisfies
  have none : satisfied.pools = [] := congrArg Prod.fst (keptToo.trans kept)
  intro target member
  have spawned := (perm_filled satisfied).mem_iff.mp member
  rw [RunState.pooled, none] at spawned
  exact earnedSatisfied target (List.mem_of_mem_filter (by simpa using spawned))

/-- A picker has created the target's entity, or a field of it is resolved already. -/
def Committed (state : RunState) (target : Target) : Prop :=
  (∃ origin ∈ state.origins, origin.entity = target.entity ∧ origin.isWeak = false) ∨
    ∃ record, state.record? target.entity = some record ∧ record.values ≠ []

/-- The strong targets are those whose entities must exist for a reason. -/
theorem isStrong_iff_committed {truth : Truth context.catalog.schema} (steady : Steady truth before)
    (earned : Earned before target) (waits : target ∈ before.pooled) :
    target.isWeak = false ↔ Committed before target := by
  obtain ⟨origin, spawned, pending⟩ := steady.sound.waits target waits
  obtain ⟨values, holds⟩ := pending.holds
  have record := pending.entity ▸ holds.record
  constructor
  · intro isStrong
    refine (earned isStrong).imp_right fun ⟨name, selected, resolved⟩ => ⟨_, record, ?_⟩
    rintro rfl
    rw [pending.continues.selector] at selected
    exact resolved (by simpa [OrderedMap.keys] using holds.names.mem_iff.mpr selected)
  · rintro (⟨other, spawnedToo, same, isStrong⟩ | ⟨found, recordToo, filled⟩)
    · cases steady.sound.origin_unique spawnedToo spawned (same.trans pending.entity)
      by_contra isWeak
      simp [(pending.weak (by simpa using isWeak)).1] at isStrong
    · cases record.symm.trans recordToo
      by_contra isWeak
      have whole := holds.names.length_eq
      rw [(pending.weak (by simpa using isWeak)).2] at whole
      simp [OrderedMap.keys] at whole
      exact filled whole

/-- A run fails for an entity that does not exist only when it finds that out of one that must. -/
theorem misses_of_run {demands : List Demand} {limit : Nat} {earlier : List Call}
    (wanted : ∀ demand ∈ demands, demand.selector.Distinct ∧ demand.Unsure)
    (failed : Fails context (Demand.runWithin limit demands) { calls := earlier } error)
    (absence : error.isAbsence = true) :
    ∃ ready state target,
      Yields context (do Demand.placeAll demands; prepare) { calls := earlier } () ready ∧
      Passes context ready state ∧ Denied context state target ∧ Misses context target error ∧
      Steady (.trivial context.catalog.schema) state ∧ Committed state target := by
  have ofRound : error.isOfRound = true := by
    by_contra other
    cases absence.symm.trans (ResolveError.isAbsence_of_isOfRound (by simpa using other))
  obtain rfl | ⟨ready, state, begun, passes, fails⟩ := fails_of_run failed ofRound
  · cases absence
  obtain ⟨target, denied, misses⟩ := misses_of_round fails absence
  have steady := steady_of_begun
    (fun demand member => ⟨(wanted demand member).1, (wanted demand member).2.values⟩) begun
  have faithful := faithful_trivial context
  have steadyState := (Passes.steady faithful steady passes).1
  obtain ⟨inquiry, chooses, _⟩ := id denied
  have waits := inquiry.mem_pooled chooses
  have unsure (demand : Demand) (member : demand ∈ demands) : demand.Unsure :=
    (wanted demand member).2
  have earned := Passes.earned faithful steady (earned_of_begun unsure begun) passes target waits
  exact ⟨ready, state, target, begun, passes, denied, misses, steadyState,
    (isStrong_iff_committed steadyState earned waits).mp misses.1⟩

end Run

end EntityResolver
