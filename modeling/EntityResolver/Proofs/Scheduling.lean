import EntityResolver.Proofs.Coherence
import EntityResolver.Proofs.Run.Absence
import EntityResolver.Proofs.Run.Serving

/-!
# Scheduling

A turn serves the pool of one class, the first, by the best of what the getters of the class offer.
It asks for fields that are lacking in each target it is made for, and such a target is rid of them
or given up. All other targets wait on as they are.
-/

set_option autoImplicit false

namespace EntityResolver

variable {getters : List Getter} {getter : Getter} {pool : List Target} {candidacy : Candidacy}

theorem bestCandidacy?_eq_none_iff :
    bestCandidacy? pool getters = none ↔ ∀ getter ∈ getters, getter.candidacy? pool = none := by
  constructor
  · intro none getter member
    cases offered : getter.candidacy? pool with
    | none => rfl
    | some candidacy =>
        obtain ⟨best, found⟩ := Run.exists_bestCandidacy member offered
        cases none.symm.trans found
  · intro refused
    cases found : bestCandidacy? pool getters with
    | none => rfl
    | some best =>
        obtain ⟨member, offered⟩ := mem_of_bestCandidacy found
        cases (refused _ member).symm.trans offered

/-- No getter offers a higher score for the pool, and none before it as high a one. -/
structure Best (getters : List Getter) (pool : List Target) (getter : Getter)
    (candidacy : Candidacy) : Prop where
  offered : getter.candidacy? pool = some candidacy
  leads : ∃ earlier later, getters = earlier ++ getter :: later ∧
    (∀ other ∈ earlier, ∀ offer, other.candidacy? pool = some offer →
      offer.score < candidacy.score) ∧
    ∀ other ∈ later, ∀ offer, other.candidacy? pool = some offer → offer.score ≤ candidacy.score

theorem Best.score_le (best : Best getters pool getter candidacy) {other : Getter}
    {offer : Candidacy} (member : other ∈ getters) (offered : other.candidacy? pool = some offer) :
    offer.score ≤ candidacy.score := by
  obtain ⟨earlier, later, rfl, less, atMost⟩ := best.leads
  rcases List.mem_append.mp member with before | here
  · exact Nat.le_of_lt (less other before offer offered)
  · rcases List.mem_cons.mp here with rfl | behind
    · cases best.offered.symm.trans offered
      exact Nat.le_refl _
    · exact atMost other behind offer offered

theorem Best.cons (best : Best getters pool getter candidacy) {head : Getter}
    (less : ∀ offer, head.candidacy? pool = some offer → offer.score < candidacy.score) :
    Best (head :: getters) pool getter candidacy := by
  obtain ⟨offered, earlier, later, split, before, behind⟩ := best
  exact ⟨offered, head :: earlier, later, congrArg _ split,
    List.forall_mem_cons.mpr ⟨less, before⟩, behind⟩

theorem best_of_bestCandidacy (found : bestCandidacy? pool getters = some (getter, candidacy)) :
    Best getters pool getter candidacy := by
  induction getters generalizing getter candidacy with
  | nil => cases found
  | cons head rest inductionHypothesis =>
      rw [bestCandidacy?] at found
      split at found
      · rename_i refused
        refine (inductionHypothesis found).cons fun offer offered => ?_
        cases refused.symm.trans offered
      · rename_i offered nothing
        cases found
        refine ⟨offered, [], rest, rfl, List.forall_mem_nil _, ?_⟩
        intro other member offer offeredToo
        cases (bestCandidacy?_eq_none_iff.mp nothing other member).symm.trans offeredToo
      · rename_i offer other better offered foundRest
        have best := inductionHypothesis foundRest
        split at found
        · rename_i less
          cases found
          refine best.cons fun again offeredToo => ?_
          cases offered.symm.trans offeredToo
          exact less
        · rename_i notLess
          cases found
          refine ⟨offered, [], rest, rfl, List.forall_mem_nil _, ?_⟩
          intro next member later offeredToo
          exact (best.score_le member offeredToo).trans (Nat.not_lt.mp notLess)

/-- There are fields to ask for and targets to ask for, and each of these lacks all of those. -/
structure Candidacy.Wanted (candidacy : Candidacy) (pool : List Target) : Prop where
  named : candidacy.selector.names ≠ []
  chosen : candidacy.chosen ≠ []
  lacking : ∀ index ∈ candidacy.chosen, ∃ target, pool[index]? = some target ∧
    candidacy.selector.names ⊆ target.unresolved

theorem Getter.candidacy_wanted (valid : ∀ target ∈ pool, target.WellFormed)
    (offered : getter.candidacy? pool = some candidacy) : candidacy.Wanted pool := by
  obtain ⟨first, serves⟩ := getter.candidacy_serves valid offered
  have validFirst := valid first serves.first_mem
  obtain ⟨index, isChosen, _⟩ := serves.chosenFirst
  refine ⟨serves.names_eq validFirst ▸ serves.isOpen, List.ne_nil_of_mem isChosen, ?_⟩
  intro index isChosen
  obtain ⟨target, found, alike, _⟩ := serves.chosen index isChosen
  have validTarget := valid target (List.mem_of_getElem? found)
  exact ⟨target, found, serves.names_subset_unresolved validFirst validTarget alike⟩

namespace Run

variable {context : RunContext} {before after : RunState} {others : List (ClassId × List Target)}
variable {results : FetchResults}

structure Turn (before after : RunState) (pool : List Target)
    (others : List (ClassId × List Target)) (candidacy : Candidacy) (results : FetchResults) :
    Prop where
  /-- A chosen target is served. What is left of it waits, if anything is. -/
  chosen : ∀ index ∈ candidacy.chosen, ∀ target, pool[index]? = some target →
    ∃ continued old new,
      before.record? target.entity = some old ∧ after.record? target.entity = some new ∧
      target.Served candidacy.selector.names results continued old new ∧
      (continued ∈ after.pooled ↔ continued.isActive = true) ∧
      ∀ other ∈ after.waiting, other.entity = target.entity → other = continued
  /-- Any other target waits on, and what is known of its entity is the same. -/
  spared : ∀ target ∈ before.waiting, (∀ index ∈ candidacy.chosen, pool[index]? ≠ some target) →
    (target ∈ before.pooled → target ∈ after.pooled) ∧
      (target ∈ before.spawned → target ∈ after.spawned) ∧
      after.record? target.entity = before.record? target.entity
  /-- The other pools are left alone. -/
  others : others <+: after.pools
  tidy : after.Tidy []
  /-- No active target is lost when the spawned ones are filled into the pools. -/
  filled : ∀ target ∈ after.waiting, target.isActive = true → target ∈ after.filled.pooled

namespace Service

variable (service : Service context before after)

theorem mem_settled {target : Target} (waits : target ∈ after.waiting) :
    target ∈ service.settled ++ service.last.waiting := by
  rw [service.ends] at waits
  rcases List.mem_append.mp waits with pooled | spawned
  · rw [RunState.pooled, List.flatMap_append, flatMap_prune] at pooled
    rcases List.mem_append.mp pooled with others | settled
    · exact List.mem_append_right _ (List.mem_append_left _ others)
    · exact List.mem_append_left _ (by simpa using List.mem_of_mem_filter settled)
  · exact List.mem_append_right _ (List.mem_append_right _ spawned)

theorem chosen (tidy : before.Tidy []) {index : Nat} {target : Target}
    (isChosen : index ∈ service.candidacy.chosen) (at_ : service.pool[index]? = some target) :
    ∃ continued old new,
      before.record? target.entity = some old ∧ after.record? target.entity = some new ∧
      target.Served service.candidacy.selector.names service.results continued old new ∧
      (continued ∈ after.pooled ↔ continued.isActive = true) ∧
      ∀ other ∈ after.waiting, other.entity = target.entity → other = continued := by
  obtain ⟨continued, old, new, found, foundOld, foundNew, turn⟩ :=
    (service.turns tidy).1 index target at_
  rw [Turns, if_pos isChosen] at turn
  have settled : continued ∈ service.settled := List.mem_of_getElem? found
  refine ⟨continued, old, new, foundOld, foundNew, turn, ⟨fun waits => ?_, fun active => ?_⟩,
    fun other waits same => ?_⟩
  · obtain ⟨cls, pool, inPools, member⟩ := mem_pooled_iff.mp waits
    exact ((service.tidy_after tidy).lively cls pool inPools).2 continued member
  · rw [(service.pooled_after tidy).2]
    exact List.mem_append_right _ (List.mem_filter.mpr ⟨settled, active⟩)
  · exact (service.own_settled tidy).eq_of_entity (service.mem_settled waits)
      (List.mem_append_left _ settled) (same.trans turn.continues.entity.symm)

theorem unchosen (tidy : before.Tidy []) {index : Nat} {target : Target}
    (notChosen : index ∉ service.candidacy.chosen) (at_ : service.pool[index]? = some target) :
    target ∈ service.settled ∧ after.record? target.entity = before.record? target.entity := by
  obtain ⟨continued, old, new, found, foundOld, foundNew, turn⟩ :=
    (service.turns tidy).1 index target at_
  rw [Turns, if_neg notChosen] at turn
  obtain ⟨rfl, rfl⟩ := turn
  exact ⟨List.mem_of_getElem? found, foundNew.trans foundOld.symm⟩

theorem record_spared (tidy : before.Tidy []) {target : Target} (waits : target ∈ before.waiting)
    (spared : ∀ index ∈ service.candidacy.chosen, service.pool[index]? ≠ some target) :
    after.record? target.entity = before.record? target.entity := by
  by_cases inPool : target ∈ service.pool
  · obtain ⟨index, at_⟩ := List.mem_iff_getElem?.mp inPool
    exact (service.unchosen tidy (fun isChosen => spared index isChosen at_) at_).2
  · refine (service.turns tidy).2 target.entity (tidy.own.inside target waits) ?_
    intro other member same
    have twin := tidy.own.eq_of_entity (mem_waiting_first service.first member) waits same
    exact inPool (twin ▸ member)

theorem pooled_spared (tidy : before.Tidy []) {target : Target} (waits : target ∈ before.pooled)
    (spared : ∀ index ∈ service.candidacy.chosen, service.pool[index]? ≠ some target) :
    target ∈ after.pooled := by
  rw [(service.pooled_after tidy).2]
  rw [service.pooled_before] at waits
  rcases List.mem_append.mp waits with inPool | inOthers
  · obtain ⟨index, at_⟩ := List.mem_iff_getElem?.mp inPool
    obtain ⟨settled, _⟩ :=
      service.unchosen tidy (fun isChosen => spared index isChosen at_) at_
    have lively := tidy.lively service.cls service.pool (service.first ▸ List.mem_cons_self)
    exact List.mem_append_right _ (List.mem_filter.mpr ⟨settled, lively.2 target inPool⟩)
  · exact List.mem_append_left _ inOthers

theorem turn (tidy : before.Tidy []) :
    Turn before after service.pool service.others service.candidacy service.results where
  chosen _ isChosen _ at_ := service.chosen tidy isChosen at_
  spared target waits spared := by
    refine ⟨fun pooled => service.pooled_spared tidy pooled spared, fun spawned => ?_,
      service.record_spared tidy waits spared⟩
    obtain ⟨_, sameSpawned, _⟩ := service.served (service.nodup_pool tidy)
    exact sameSpawned ▸ (service.tidy_fetched tidy).2.1.subset spawned
  others := (service.pooled_after tidy).1
  tidy := service.tidy_after tidy
  filled target waits active := by
    refine (perm_filled after).mem_iff.mpr ?_
    exact (List.mem_append.mp waits).elim (List.mem_append_left _) fun spawned =>
      List.mem_append_right _ (List.mem_filter.mpr ⟨spawned, active⟩)

theorem calls_after (tidy : before.Tidy []) : after.calls = service.fetched.calls := by
  obtain ⟨_, quiet, _⟩ := quiet_settleChosen (service.nodup_pool tidy) service.settles
  have kept : service.last.calls = service.fetched.calls := by
    obtain ⟨_, _, _, _, same⟩ := quiet
    rw [same]
  exact (congrArg RunState.calls service.ends).trans kept

end Service

section First

variable {cls : ClassId} (first : before.pools = (cls, pool) :: others)

include first

theorem fails_of_unserved (none : bestCandidacy? pool (context.catalog.gettersOf cls) = none) :
    Fails context serveFirst before
      (.noApplicableMethod (context.catalog.schema.className cls) (openFields pool)) := by
  unfold serveFirst
  refine fails_bind_iff.mpr (.inr ⟨_, _, yields_get_iff.mpr ⟨rfl, rfl⟩, ?_⟩)
  simp only [first]
  refine fails_bind_iff.mpr (.inr ⟨⟨⟩, _, yields_modify_iff.mpr rfl, ?_⟩)
  refine fails_bind_iff.mpr (.inr ⟨_, _, yields_read_iff.mpr ⟨rfl, rfl⟩, ?_⟩)
  simp only [none]
  exact fails_bind_iff.mpr
    (.inr ⟨_, _, yields_className_iff.mpr ⟨rfl, rfl⟩, fails_throw_iff.mpr rfl⟩)

/-- The best offer is executed, and a failure of it is the turn's. -/
theorem serveFirst_error
    (best : bestCandidacy? pool (context.catalog.gettersOf cls) = some (getter, candidacy))
    {error : ResolveError} {failed : RunState}
    (fails : getter.fetch candidacy context { before with pools := others } = .error error failed) :
    serveFirst context before = .error error failed := by
  unfold serveFirst
  refine (Yields.bind (yields_get_iff.mpr ⟨rfl, rfl⟩) _).trans ?_
  simp only [first]
  have shortens : Yields context (modify fun state => { state with pools := others }) before ⟨⟩
      { before with pools := others } := yields_modify_iff.mpr rfl
  refine (Yields.bind shortens _).trans ?_
  refine (Yields.bind (yields_read_iff.mpr ⟨rfl, rfl⟩) _).trans ?_
  simp only [best]
  exact bind_of_error fails _

end First

/-- In every reachable state with a pool, a turn is the first pool's. Unless no getter offers to
serve it, the best offer is taken; it is for fields that all chosen targets lack, and only these
targets are touched. -/
theorem serveFirst_turn (reached : Reachable context before) (waiting : before.pools ≠ []) :
    ∃ cls pool others, before.pools = (cls, pool) :: others ∧
      (((∀ getter ∈ context.catalog.gettersOf cls, getter.candidacy? pool = none) ∧
          Fails context serveFirst before
            (.noApplicableMethod (context.catalog.schema.className cls) (openFields pool))) ∨
        ∃ getter candidacy, Best (context.catalog.gettersOf cls) pool getter candidacy ∧
          candidacy.Wanted pool ∧
          (∀ error failed,
            getter.fetch candidacy context { before with pools := others } = .error error failed →
            serveFirst context before = .error error failed) ∧
          ∀ after, Yields context serveFirst before () after → ∃ results fetched,
            Yields context (getter.fetch candidacy) { before with pools := others } results
              fetched ∧
            after.calls = fetched.calls ∧ Turn before after pool others candidacy results) := by
  have tidy := reached.tidy
  obtain ⟨⟨cls, pool⟩, others, first⟩ := List.exists_cons_of_ne_nil waiting
  refine ⟨cls, pool, others, first, ?_⟩
  cases best : bestCandidacy? pool (context.catalog.gettersOf cls) with
  | none => exact .inl ⟨bestCandidacy?_eq_none_iff.mp best, fails_of_unserved first best⟩
  | some chosen =>
      obtain ⟨getter, candidacy⟩ := chosen
      have isBest := best_of_bestCandidacy best
      have wellFormed (target : Target) (member : target ∈ pool) : target.WellFormed :=
        tidy.own.wellFormed target (mem_waiting_first first member)
      refine .inr ⟨getter, candidacy, isBest, getter.candidacy_wanted wellFormed isBest.offered,
        fun error failed fails => serveFirst_error first best fails, fun after done => ?_⟩
      obtain ⟨service⟩ := exists_service waiting done
      have turn := service.turn tidy
      have calls := service.calls_after tidy
      have fetches := service.fetches
      have bestToo := service.best
      cases service.first.symm.trans first
      cases bestToo.symm.trans best
      exact ⟨service.results, service.fetched, fetches, calls, turn⟩

end Run

namespace Units

open Run

/-- Of two units that wait, the call is for the first alone, as the getter takes one id. -/
theorem serves_overlapping : ∃ before after pool candidacy results,
    Reachable (context three) before ∧ before.pools = [(cls, pool)] ∧ pool.length = 2 ∧
    candidacy.chosen = [0] ∧ Yields (context three) serveFirst before () after ∧
    Turn before after pool [] candidacy results := by
  have distinct (demand : Demand) (member : demand ∈ overlapping) : demand.selector.Distinct := by
    obtain ⟨_, _, rfl, distinct, _⟩ := of_mem_overlapping member
    exact distinct
  have prepared : Proceeds (context three) (Demand.placeAll overlapping >>= fun _ => prepare)
      { calls := [] } :=
    Proceeds.bind ((Reachable.start []).placeAll distinct) fun _ placed reached =>
      reached.operation .prepare trivial
  have reached := Meets.yields prepared rfl
  obtain ⟨_, pool, others, first, ⟨refused, _⟩ | ⟨_, candidacy, best, _, _, turns⟩⟩ :=
    serveFirst_turn reached nofun
  · cases first
    cases refused _ List.mem_cons_self
  · cases first
    obtain ⟨results, _, _, _, turn⟩ := turns _ rfl
    obtain ⟨offered, earlier, later, split, _⟩ := best
    cases earlier with
    | cons _ rest => cases rest <;> cases split
    | nil =>
        cases split
        cases offered
        exact ⟨_, _, _, _, results, reached, rfl, rfl, rfl, rfl, turn⟩

end Units

end EntityResolver
