import EntityResolver.Proofs.Scheduling

/-!
# Fields that no getter supplies

A getter offers nothing for a pool only where it supplies no field that a target of the pool lacks,
and no pool is empty or holds a target that lacks nothing. So a run fails for want of a getter only
where fields are lacking that nobody supplies.
-/

set_option autoImplicit false

namespace EntityResolver

/-- A getter stays out exactly where it supplies nothing that is lacking. -/
theorem Getter.candidacy?_eq_none_iff {getter : Getter} {pool : List Target}
    (valid : ∀ target ∈ pool, target.WellFormed) :
    getter.candidacy? pool = none ↔
      ∀ target ∈ pool, ∀ name ∈ target.unresolved, name ∉ getter.supplied := by
  constructor
  · intro refused target member name lacking supplied
    have isOpen : target.openAmong getter.supplied ≠ [] :=
      List.ne_nil_of_mem (Target.mem_openAmong.mpr ⟨lacking, supplied⟩)
    obtain ⟨candidacy, offered⟩ := Run.exists_candidacy valid member isOpen
    cases refused.symm.trans offered
  · intro unsupplied
    cases offered : getter.candidacy? pool with
    | none => rfl
    | some candidacy =>
        obtain ⟨first, serves⟩ := getter.candidacy_serves valid offered
        obtain ⟨name, member⟩ := List.exists_mem_of_ne_nil _ serves.isOpen
        obtain ⟨lacking, supplied⟩ := Target.mem_openAmong.mp member
        exact absurd supplied (unsupplied first serves.first_mem name lacking)

namespace Run

variable {context : RunContext} {before after : RunState} {cls : ClassId} {pool : List Target}

theorem mem_pool_iff {target : Target} (tidy : before.Tidy [])
    (inPools : (cls, pool) ∈ before.pools) :
    target ∈ pool ↔ target ∈ before.pooled ∧ target.cls = cls := by
  constructor
  · intro member
    exact ⟨mem_pooled_iff.mpr ⟨cls, pool, inPools, member⟩,
      tidy.classed cls pool inPools target member⟩
  · rintro ⟨waits, rfl⟩
    obtain ⟨other, otherPool, inPoolsToo, member⟩ := mem_pooled_iff.mp waits
    have same : other = target.cls := (tidy.classed other otherPool inPoolsToo target member).symm
    subst same
    cases List.inj_on_of_nodup_map tidy.classes inPools inPoolsToo rfl
    exact member

theorem mem_openFields_iff {name : String} :
    name ∈ openFields pool ↔ ∃ target ∈ pool, name ∈ target.unresolved := by
  rw [openFields, Candidacy.mem_distinct, List.mem_flatMap]

theorem unserved_of_round {className : String} {fields : List String}
    (failed : Fails context round before (.noApplicableMethod className fields)) :
    ∃ cls pool others, before.pools = (cls, pool) :: others ∧
      bestCandidacy? pool (context.catalog.gettersOf cls) = none ∧
      className = context.catalog.schema.className cls ∧ fields = openFields pool := by
  cases roundFailure_of_fails failed with
  | @unserved cls pool others first none raised =>
      cases raised
      exact ⟨cls, pool, others, first, none, rfl, rfl⟩
  | unfetched _ _ failed =>
      cases closed_failsPlainly.fetch Scope.reads_everything _ _ _ failed
  | unsettled _ _ _ failed =>
      obtain ⟨_, _, _, _, unsettled⟩ := unsettled_of_settleChosen failed
      cases unsettled with
      | lacks _ _ raised => cases raised
      | misses _ misses => cases misses.2

/-- The fields are what the waiting targets of the class lack, and no getter of the class supplies
any of them. -/
structure Unsupplied (context : RunContext) (state : RunState) (cls : ClassId)
    (fields : List String) : Prop where
  nonempty : fields ≠ []
  nodup : fields.Nodup
  lacking : ∀ name, name ∈ fields ↔
    ∃ target ∈ state.pooled, target.cls = cls ∧ name ∈ target.unresolved
  unsupplied : ∀ getter ∈ context.catalog.gettersOf cls, ∀ name ∈ fields, name ∉ getter.supplied

theorem unsupplied_openFields (tidy : before.Tidy []) (inPools : (cls, pool) ∈ before.pools)
    (none : bestCandidacy? pool (context.catalog.gettersOf cls) = none) :
    Unsupplied context before cls (openFields pool) := by
  obtain ⟨filled, active⟩ := tidy.lively cls pool inPools
  have wellFormed (target : Target) (member : target ∈ pool) : target.WellFormed :=
    tidy.own.wellFormed target
      (List.mem_append_left before.spawned (mem_pooled_iff.mpr ⟨cls, pool, inPools, member⟩))
  refine ⟨?_, Candidacy.nodup_distinct _, fun name => ?_, fun getter member name isOpen => ?_⟩
  · obtain ⟨target, member⟩ := List.exists_mem_of_ne_nil pool filled
    have lacks : target.unresolved ≠ [] := by simpa [Target.isActive] using active target member
    obtain ⟨name, lacking⟩ := List.exists_mem_of_ne_nil _ lacks
    exact List.ne_nil_of_mem (mem_openFields_iff.mpr ⟨target, member, lacking⟩)
  · simp only [mem_openFields_iff, mem_pool_iff tidy inPools, and_assoc]
  · obtain ⟨target, inPool, lacking⟩ := mem_openFields_iff.mp isOpen
    have refused := bestCandidacy?_eq_none_iff.mp none getter member
    exact (Getter.candidacy?_eq_none_iff wellFormed).mp refused target inPool name lacking

/-- A run that fails for want of a getter names a class of which targets wait, and all fields that
these lack, each once; no getter of the class supplies any of them. -/
theorem unsupplied_of_run {demands : List Demand} {limit : Nat} {earlier : List Call}
    {className : String} {fields : List String}
    (distinct : ∀ demand ∈ demands, demand.selector.Distinct)
    (failed : Fails context (Demand.runWithin limit demands) { calls := earlier }
      (.noApplicableMethod className fields)) :
    ∃ ready state cls,
      Yields context (do Demand.placeAll demands; prepare) { calls := earlier } () ready ∧
      Passes context ready state ∧
      Fails context round state (.noApplicableMethod className fields) ∧
      className = context.catalog.schema.className cls ∧ Unsupplied context state cls fields := by
  obtain impossible | ⟨ready, state, begun, passes, fails⟩ := fails_of_run failed rfl
  · cases impossible
  obtain ⟨cls, pool, others, first, none, rfl, rfl⟩ := unserved_of_round fails
  have tidy := (passes.reachable (reachable_of_begun distinct begun)).tidy
  exact ⟨ready, state, cls, begun, passes, fails, rfl,
    unsupplied_openFields tidy (first ▸ List.mem_cons_self) none⟩

end Run

namespace Units

open Run

/-- The wish for a unit with its parent and its name, of which nothing is known. -/
def named : List Demand :=
  [.entity cls "2" (.nested "parent" .empty (.nested "name" .empty .empty)) [] true]

/-- The parent of the unit is found in the first round, and its name is what the second one lacks a
getter for. -/
theorem unsupplied_name :
    Fails (context three) (Demand.runWithin 2 named) { calls := [] }
        (.noApplicableMethod "Unit" ["name"]) ∧
      ∃ ready state cls,
        Yields (context three) (do Demand.placeAll named; prepare) { calls := [] } () ready ∧
        Passes (context three) ready state ∧
        Fails (context three) round state (.noApplicableMethod "Unit" ["name"]) ∧
        "Unit" = (context three).catalog.schema.className cls ∧
        Unsupplied (context three) state cls ["name"] := by
  have failed : Fails (context three) (Demand.runWithin 2 named) { calls := [] }
      (.noApplicableMethod "Unit" ["name"]) := ⟨_, rfl⟩
  refine ⟨failed, unsupplied_of_run (fun demand member => ?_) failed⟩
  cases List.mem_singleton.mp member
  simp [Demand.selector, Selector.Distinct, Selector.names]

end Units

end EntityResolver
