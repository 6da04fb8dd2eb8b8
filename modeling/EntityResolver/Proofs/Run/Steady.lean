import EntityResolver.Proofs.Run.Sound
import EntityResolver.Proofs.Run.Termination

/-!
Between rounds what a run knows is sound.

For that the getters have to answer truly. Reading responses may bring values of other entities
along; unless everything counts as true, entities must come by id alone.
-/

set_option autoImplicit false

namespace EntityResolver

/-- Every value is true, and every entity may be lacking. -/
def Truth.Trivial {schema : Schema} (truth : Truth schema) : Prop :=
  (∀ cls id name keys, truth.holds cls id name keys) ∧
    ∀ cls id selector, truth.lacks cls id selector

variable {context : RunContext} {truth : Truth context.catalog.schema}
variable {before middle after : RunState} {target : Target} {live : List Target}

theorem carries_of_brought (trivial_ : truth.Trivial) {key : EntityKey} {selector : Selector}
    {values : FieldValues}
    (brought : Run.Brought (fun _ sub entity => ∃ key, before.Stands sub entity key)
      selector.resolved values) : Carries truth before key selector values := by
  intro name value member
  obtain ⟨sub, selected, stands⟩ := brought name value member
  obtain ⟨keys, same⟩ := FieldValue.exists_rel stands
  exact ⟨sub, selected, keys, trivial_.1 _ _ _ _, same⟩

namespace Run

def sounding (truth : Truth context.catalog.schema) (live : List Target) : Discipline context where
  embeds := truth.Trivial
  given _ _ values := values = []
  admits _ := Selector.Distinct
  invariant state := Sound truth (state.spawned ++ live) state
  leads := RunState.Keeps
  serves state _ sub entity := ∃ key, state.Stands sub entity key
  knows _ _ := True
  refl := .refl
  trans := .trans
  keeps keeps serve := serve.imp fun _ stands => stands.mono keeps
  known _ := True.intro
  remains _ known := known
  below distinct selected _ := distinct.of_mem_resolved selected
  spawns := by
    intro before after cls id selector values entity sound distinct direct brought done
    have carries : Carries truth before (cls, id) selector values := by
      rcases direct with rfl | trivial_
      · simp [Carries]
      · apply carries_of_brought trivial_
        exact brought.mono fun _ _ _ ⟨_, _, serve⟩ => serve
    obtain ⟨soundAfter, keeps, member⟩ := enlisted sound distinct carries done
    exact ⟨soundAfter, keeps, _, .inl ⟨_, member, rfl, rfl, rfl, Selector.same_refl distinct⟩⟩
  roots := by
    intro before after cls id selector values isWeak entity sound distinct none done
    subst none
    obtain ⟨soundAfter, keeps, _⟩ := enlisted sound distinct (by simp [Carries]) done
    exact ⟨soundAfter, keeps⟩
  frame calls stats outputs sound _ := sound.frame _ _ _ _ _ _
  shelves := by
    intro before after cls id sub values entity sound _ done
    obtain ⟨_, rfl⟩ := yields_alloc_iff.mp done
    obtain ⟨soundAfter, keeps⟩ := sound.alloc ⟨cls, some id, values⟩
    exact ⟨soundAfter, keeps, True.intro⟩
where
  enlisted {before after : RunState} {cls : ClassId} {id : String} {selector : Selector}
      {values : FieldValues} {isWeak : Bool} {entity : Handle}
      (sound : Sound truth (before.spawned ++ live) before) (distinct : selector.Distinct)
      (carries : Carries truth before (cls, id) selector values)
      (done : Yields context (spawn cls id selector values isWeak) before entity after) :
      Sound truth (after.spawned ++ live) after ∧ before.Keeps after ∧
        ⟨entity, cls, id, selector, isWeak⟩ ∈ after.origins := by
    obtain ⟨member, keeps, new, queue, soundAfter⟩ := sound.spawn distinct carries done
    rw [queue, List.append_assoc]
    exact ⟨soundAfter.perm (perm_append_swap _ _ _), keeps, member⟩

end Run

open Run

structure Faithful (context : RunContext) (truth : Truth context.catalog.schema) : Prop where
  direct : ∀ getter ∈ context.catalog.getters, getter.isDirect ∨ truth.Trivial
  answers : ∀ {cls getter candidacy live before results after},
    getter ∈ context.catalog.gettersOf cls → candidacy.selector.Distinct →
    candidacy.selector.names ≠ [] → candidacy.selector.names ⊆ getter.supplied →
    Sound truth (before.spawned ++ live) before →
    Yields context (getter.fetch candidacy) before results after →
    ∀ id ∈ candidacy.ids, Answers truth after (cls, id) candidacy.selector (results.get? id)

/-- What is said of an entity is said of it whatever the order of fields. -/
theorem Answers.of_serves {pool : List Target} {first : Target} {candidacy : Candidacy}
    {supplied : List String} {outcome? : Option FetchOutcome}
    (sound : Sound truth live before) (serves : candidacy.Serves supplied pool first)
    (validFirst : first.WellFormed) (valid : target.WellFormed)
    (alike : target.isAlike first = true)
    (answers : Answers truth before target.key candidacy.selector outcome?) :
    Answers truth before target.key target.selector outcome? := by
  have names : candidacy.selector.names ⊆ target.selector.names := by
    intro name member
    obtain ⟨sub, selected⟩ := Selector.exists_mem_resolved member
    obtain ⟨other, wanted, _⟩ := serves.exists_resolved validFirst valid alike selected
    exact Selector.mem_names_of_mem_resolved wanted
  unfold Answers at answers ⊢
  split
  · intro name value member
    obtain ⟨sub, selected, keys, holds, stands⟩ := answers name value member
    obtain ⟨other, wanted, same⟩ := serves.exists_resolved validFirst valid alike selected
    have distinct := (serves.distinct validFirst).of_mem_resolved selected
    exact ⟨other, wanted, keys, holds, stands.mono fun entity _ key =>
      sound.stands_of_same distinct (valid.distinct.of_mem_resolved wanted) same⟩
  · exact truth.wider answers names
  · exact truth.wider answers names

/-- Between rounds: all targets are in the pools of their classes, and what is known is sound. -/
structure Steady (truth : Truth context.catalog.schema) (state : RunState) : Prop where
  none : state.spawned = []
  classed : RunState.Classed state.pools
  sound : Sound truth state.pooled state

namespace Steady

theorem of_spawned (sound : Sound truth before.spawned before) (none : before.pools = []) :
    Steady truth before.filled := by
  have active : Sound truth (before.spawned.filter Target.isActive ++ []) before :=
    Sound.filter_active (by simpa using sound)
  have pooled := perm_filled before
  rw [RunState.pooled.eq_def before, none] at pooled
  obtain ⟨soundFilled, _⟩ := active.frame before.filled.pools [] before.prerequisites before.outputs
    before.stats before.calls
  refine ⟨rfl, classed_filled (by simp [none, RunState.Classed]), ?_⟩
  exact soundFilled.perm (by simpa using pooled.symm)

theorem fetched (faithful : Faithful context truth) (steady : Steady truth before)
    (service : Service context before after) :
    Sound truth (service.pool ++ (service.others.flatMap Prod.snd ++ service.fetched.spawned))
      service.fetched ∧ before.Keeps service.fetched ∧
    ∀ (index : Nat) target, service.pool[index]? = some target →
      index ∈ service.candidacy.chosen →
      Answers truth service.fetched target.key target.selector
        (service.results.get? target.id) := by
  obtain ⟨offers, offered⟩ := mem_of_bestCandidacy service.best
  have offersAll : service.getter ∈ context.catalog.getters := List.mem_of_mem_filter offers
  have pooled : before.pooled = service.pool ++ service.others.flatMap Prod.snd :=
    service.pooled_before
  have sound := steady.sound
  rw [pooled] at sound
  have valid : ∀ target ∈ service.pool, target.WellFormed := fun target member =>
    sound.wellFormed (List.mem_append_left _ member)
  obtain ⟨first, serves⟩ := Getter.candidacy_serves valid offered
  have validFirst := valid first serves.first_mem
  have distinct := serves.distinct validFirst
  let discipline : Discipline context :=
    sounding truth (service.pool ++ service.others.flatMap Prod.snd)
  obtain ⟨begun, keeps⟩ := sound.frame service.others before.spawned before.prerequisites
    before.outputs before.stats before.calls
  have started : discipline.invariant { before with pools := service.others } := by
    change Sound truth (before.spawned ++ _) _
    rw [steady.none] at begun ⊢
    exact begun
  have fetches : discipline.Fetches service.getter.cls service.candidacy.selector
      (service.getter.fetch service.candidacy) :=
    Discipline.fetch (faithful.direct _ offersAll) _
      fun _ _ selected _ _ => distinct.of_mem_resolved selected
  obtain ⟨soundAfter, keepsToo⟩ := ((fetches started).yields service.fetches).1
  refine ⟨?_, keeps.trans keepsToo, fun index target found chosen => ?_⟩
  · exact soundAfter.perm
      ((perm_append_swap _ _ _).trans (List.perm_append_comm.append_left _))
  · obtain ⟨_, foundToo, alike, asked⟩ := serves.chosen index chosen
    cases found.symm.trans foundToo
    have member := List.mem_of_getElem? found
    have named := serves.names_eq validFirst ▸ serves.isOpen
    have answers := faithful.answers offers distinct named (serves.names_subset_supplied validFirst)
      started service.fetches target.id asked
    have cls := steady.classed _ _ (service.first ▸ List.mem_cons_self) target member
    rw [← cls] at answers
    exact answers.of_serves soundAfter serves validFirst (valid target member) alike

/-- Once the pool that was served is settled and the spawned targets are in the pools. -/
theorem filled (faithful : Faithful context truth) (steady : Steady truth before)
    (service : Service context before after) :
    Sound truth after.filled.pooled after.filled ∧ before.Keeps after.filled ∧
      RunState.Classed after.filled.pools := by
  obtain ⟨soundFetched, keeps, answers⟩ := steady.fetched faithful service
  obtain ⟨soundLast, keepsLast⟩ := soundFetched.settleChosen
    (fun index target found chosen => answers index target found (by simpa using chosen))
    service.settles
  have nodup : ∀ target ∈ service.pool, target.unresolved.Nodup := fun target member =>
    (soundFetched.wellFormed (List.mem_append_left _ member)).nodup
  have pooled := service.perm_pooled nodup
  have classed := service.classed nodup steady.classed
  have arena : after.filled.arena = service.last.arena :=
    (congrArg RunState.arena service.ends).trans rfl
  have origins : after.filled.origins = service.last.origins :=
    (congrArg RunState.origins service.ends).trans rfl
  have cache : after.filled.cache = service.last.cache :=
    (congrArg RunState.cache service.ends).trans rfl
  obtain ⟨soundFilled, keepsFilled⟩ := soundLast.recache arena origins (cache ▸ soundLast.cache)
  have gathered : (service.settled.filter Target.isActive ++
      (service.others.flatMap Prod.snd ++ service.fetched.spawned)).Perm
        (service.fetched.spawned ++
          (service.others.flatMap Prod.snd ++ service.settled.filter Target.isActive)) := by
    refine (perm_append_swap _ _ _).trans ?_
    refine (List.perm_append_comm.append_left _).trans ?_
    exact perm_append_swap _ _ _
  have active := (soundFilled.perm gathered).filter_active
  exact ⟨active.perm (List.perm_append_comm.trans pooled.symm),
    (keeps.trans keepsLast).trans keepsFilled, classed⟩

theorem round (faithful : Faithful context truth) (steady : Steady truth before)
    (waiting : before.pools ≠ []) (done : Yields context Run.round before () after) :
    Steady truth after ∧ before.Keeps after := by
  obtain ⟨served, swept, last, ⟨service⟩, sweeps, rfl⟩ := round_cases waiting done
  obtain ⟨begun, counted⟩ := steady.sound.frame before.pools before.spawned before.prerequisites
    before.outputs before.counted.stats before.calls
  have start : Steady truth before.counted := ⟨steady.none, steady.classed, begun⟩
  obtain ⟨soundFilled, keeps, classed⟩ := start.filled faithful service
  obtain ⟨pairs, quiet⟩ := quiet_sweepPools sweeps
  have whole : Sound truth (served.filled.pools.flatMap Prod.snd ++ []) served.filled := by
    rw [List.append_nil]
    exact soundFilled
  obtain ⟨soundSwept, keepsToo⟩ := whole.sweepPools sweeps
  have active := soundSwept.filter_active
  rw [List.append_nil, ← flatMap_prune] at active
  obtain ⟨soundAfter, keepsLast⟩ := active.frame (prune swept) last.spawned last.prerequisites
    last.outputs last.stats last.calls
  refine ⟨⟨quiet.spawned, classed_prune (classed_sweepPools pairs classed), soundAfter⟩, ?_⟩
  exact ((counted.trans keeps).trans keepsToo).trans keepsLast

theorem rounds (faithful : Faithful context truth) {limit : Nat} {isDone : Bool}
    (steady : Steady truth before) (done : Yields context (Run.rounds limit) before isDone after) :
    Steady truth after ∧ before.Keeps after ∧ (isDone = true → after.pools = []) := by
  induction limit generalizing before with
  | zero =>
      simp only [Run.rounds, yields_bind_iff, yields_get_iff, yields_pure_iff] at done
      obtain ⟨_, _, ⟨rfl, rfl⟩, rfl, rfl⟩ := done
      exact ⟨steady, .refl _, List.isEmpty_iff.mp⟩
  | succ limit inductionHypothesis =>
      by_cases empty : before.pools = []
      · rw [Yields, rounds_of_isEmpty empty] at done
        cases done
        exact ⟨steady, .refl _, fun _ => empty⟩
      · rw [Yields, rounds_succ empty] at done
        obtain ⟨_, middle, first, remaining⟩ := yields_bind_iff.mp done
        obtain ⟨steadyMiddle, keeps⟩ := steady.round faithful empty first
        obtain ⟨steadyAfter, keepsToo, final⟩ := inductionHypothesis steadyMiddle remaining
        exact ⟨steadyAfter, keeps.trans keepsToo, final⟩

end Steady

end EntityResolver
