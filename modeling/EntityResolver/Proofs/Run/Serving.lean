import EntityResolver.Proofs.Run.Learning
import EntityResolver.Proofs.Run.Reachable

/-!
What serving a pool does to each of its targets.

The targets that a call was made for are settled one after the other, and each of them is alone with
its entity. So what becomes of a target is what settling it comes to, and all other entities are as
they were before.
-/

set_option autoImplicit false

namespace EntityResolver

namespace Target

/-- Those of the named fields that the target lacked have got their values. Nothing else is changed
about its entity. -/
structure Provided (names : List String) (values : FieldValues) (target continued : Target)
    (old new : EntityRecord) : Prop where
  continues : target.Continues continued
  unresolved : continued.unresolved = target.unresolved.filter fun name => !names.contains name
  cls : new.cls = old.cls
  id : new.id = old.id
  stored : ∀ name ∈ names, name ∈ target.unresolved →
    (values.get? name).isSome = true ∧ new.values.get? name = values.get? name
  kept : ∀ name, name ∉ names ∨ name ∉ target.unresolved →
    new.values.get? name = old.values.get? name

/-- The target, which was weak, is given up, and its entity has no id any more. -/
structure Dropped (target continued : Target) (old new : EntityRecord) : Prop where
  isWeak : target.isWeak = true
  continued : continued = { target with unresolved := [] }
  record : new = { old with id := none }

/-- What becomes of a target and its entity by what a call said about it. -/
def Served (names : List String) (results : FetchResults) (target continued : Target)
    (old new : EntityRecord) : Prop :=
  (∃ values, results.get? target.id = some (.found values) ∧
    target.Provided names values continued old new) ∨
  ((∀ values, results.get? target.id ≠ some (.found values)) ∧ target.Dropped continued old new)

variable {names : List String} {values : FieldValues} {results : FetchResults}
variable {target continued : Target} {old new : EntityRecord} {name : String}

theorem provided_nil (target : Target) (record : EntityRecord) :
    target.Provided [] values target record record :=
  ⟨.refl _, by simp, rfl, rfl, by simp, fun _ _ => rfl⟩

theorem Served.continues (served : target.Served names results continued old new) :
    target.Continues continued := by
  rcases served with ⟨_, _, provided⟩ | ⟨_, dropped⟩
  · exact provided.continues
  · rw [dropped.continued]
    exact ⟨rfl, rfl, rfl, rfl, List.nil_sublist _⟩

theorem Provided.skip (given : target.Provided names values continued old new)
    (resolved : name ∉ target.unresolved) :
    target.Provided (name :: names) values continued old new where
  continues := given.continues
  unresolved := by
    refine given.unresolved.trans (List.filter_congr fun other member => ?_)
    have apart : other ≠ name := fun same => resolved (same ▸ member)
    simp [apart]
  cls := given.cls
  id := given.id
  stored other member lacking := by
    rcases List.mem_cons.mp member with rfl | inRest
    · exact absurd lacking resolved
    · exact given.stored other inRest lacking
  kept other spared := by
    refine given.kept other ?_
    rcases spared with unnamed | settled
    · exact .inl fun listed => unnamed (List.mem_cons_of_mem _ listed)
    · exact .inr settled

theorem Provided.store {value : FieldValue Handle} (nodup : target.unresolved.Nodup)
    (lacking : name ∈ target.unresolved) (found : values.get? name = some value)
    (given : (target.without name).Provided names values continued
      { old with values := old.values.set name value } new) :
    target.Provided (name :: names) values continued old new where
  continues := (target.continues_without name).trans given.continues
  unresolved := by
    have rest : (target.without name).unresolved = target.unresolved.filter (· != name) :=
      nodup.erase_eq_filter name
    rw [given.unresolved, rest, List.filter_filter]
    refine List.filter_congr fun other _ => ?_
    by_cases same : other = name <;> simp [same]
  cls := given.cls
  id := given.id
  stored other member lacking := by
    by_cases same : other = name
    · subst same
      have stored := given.kept other (.inr nodup.not_mem_erase)
      rw [OrderedMap.get?_set, if_pos rfl] at stored
      exact ⟨by rw [found]; rfl, stored.trans found.symm⟩
    · have inRest := (List.mem_cons.mp member).resolve_left same
      exact given.stored other inRest ((List.mem_erase_of_ne same).mpr lacking)
  kept other spared := by
    have apart : name ≠ other := by
      rintro rfl
      exact spared.elim (fun unnamed => unnamed List.mem_cons_self) fun settled => settled lacking
    have sparedToo : other ∉ names ∨ other ∉ (target.without name).unresolved := by
      rcases spared with unnamed | settled
      · exact .inl fun listed => unnamed (List.mem_cons_of_mem _ listed)
      · exact .inr fun left => settled (List.mem_of_mem_erase left)
    exact (given.kept other sparedToo).trans (by rw [OrderedMap.get?_set, if_neg apart])

end Target

namespace Run

variable {context : RunContext} {before after : RunState} {target continued : Target}
variable {path : String} {names : List String} {values : FieldValues} {results : FetchResults}
variable {chosen : List Nat} {old : EntityRecord}

theorem record_learned (schema : Schema) (state : RunState) (target : Target) (name : String)
    (value : FieldValue Handle) (entity : Handle) :
    (state.learned schema target name value).record? entity =
      if entity = target.entity then (state.record? target.entity).map fun record =>
        { record with values := record.values.set name value }
      else state.record? entity := by
  have kept (entity : Handle) :
      (state.kept schema target name value).record? entity = state.record? entity := by
    unfold RunState.kept
    split <;> rfl
  rw [RunState.record_stored, kept, kept]

theorem record_learned_own {schema : Schema} {name : String} {value : FieldValue Handle}
    (found : before.record? target.entity = some old) :
    (before.learned schema target name value).record? (target.without name).entity =
      some { old with values := old.values.set name value } := by
  rw [record_learned, Target.without, if_pos rfl, found]
  rfl

theorem provided_of_resolveFetched (nodup : target.unresolved.Nodup)
    (found : before.record? target.entity = some old)
    (done : Yields context (resolveFetched path values names target) before continued after) :
    (∃ new, after.record? target.entity = some new ∧
      target.Provided names values continued old new) ∧
      ∀ entity, entity ≠ target.entity → after.record? entity = before.record? entity := by
  induction names generalizing before target old with
  | nil =>
      obtain ⟨rfl, rfl⟩ := yields_pure_iff.mp done
      exact ⟨⟨old, found, Target.provided_nil continued old⟩, fun _ _ => rfl⟩
  | cons name rest inductionHypothesis =>
      rw [resolveFetched] at done
      split at done
      · rename_i lacking
        split at done
        · rename_i value given
          obtain ⟨_, middle, first, remaining⟩ := yields_bind_iff.mp done
          obtain ⟨rfl, rfl⟩ := yields_resolveAndCache_iff.mp first
          have nodupRest : (target.without name).unresolved.Nodup := nodup.erase name
          obtain ⟨⟨new, foundNew, provided⟩, others⟩ :=
            inductionHypothesis nodupRest (record_learned_own found) remaining
          refine ⟨⟨new, foundNew, .store nodup (by simpa using lacking) given provided⟩, ?_⟩
          intro entity other
          exact (others entity other).trans ((record_learned ..).trans (if_neg other))
        · exact absurd done not_yields_throw
      · rename_i resolved
        obtain ⟨⟨new, foundNew, provided⟩, others⟩ := inductionHypothesis nodup found done
        exact ⟨⟨new, foundNew, provided.skip (by simpa using resolved)⟩, others⟩

theorem served_of_settle (nodup : target.unresolved.Nodup)
    (found : before.record? target.entity = some old)
    (done : Yields context (settle path names results target) before continued after) :
    (∃ new, after.record? target.entity = some new ∧
      target.Served names results continued old new) ∧
      ∀ entity, entity ≠ target.entity → after.record? entity = before.record? entity := by
  have given (silent : ∀ values, results.get? target.id ≠ some (.found values))
      (finished : Yields context (giveUp target) before continued after) :
      (∃ new, after.record? target.entity = some new ∧
        target.Served names results continued old new) ∧
        ∀ entity, entity ≠ target.entity → after.record? entity = before.record? entity := by
    obtain ⟨isWeak, rfl, rfl⟩ := yields_giveUp_iff.mp finished
    have record : (before.forgotten target).record? target.entity =
        some { old with id := none } := by
      rw [RunState.record_forgotten, if_pos rfl, found]
      rfl
    refine ⟨⟨_, record, .inr ⟨silent, isWeak, rfl, rfl⟩⟩, fun entity other => ?_⟩
    exact (RunState.record_forgotten target).trans (if_neg other)
  unfold settle at done
  split at done
  · rename_i values said
    obtain ⟨⟨new, foundNew, provided⟩, others⟩ := provided_of_resolveFetched nodup found done
    exact ⟨⟨new, foundNew, .inl ⟨values, said, provided⟩⟩, others⟩
  · rename_i said
    exact given (by simp [said]) done
  · rename_i said
    exact given (by simp [said]) done

/-- A target is served if it is chosen, and otherwise nothing happens to it. -/
def Turns (isChosen : Prop) [Decidable isChosen] (names : List String) (results : FetchResults)
    (target continued : Target) (old new : EntityRecord) : Prop :=
  if isChosen then target.Served names results continued old new else continued = target ∧ new = old

theorem turns_of_settleAt {position : Nat} (nodup : target.unresolved.Nodup)
    (found : before.record? target.entity = some old)
    (done : Yields context (settleAt path names results chosen position target) before continued
      after) :
    (∃ new, after.record? target.entity = some new ∧
      Turns (position ∈ chosen) names results target continued old new) ∧
      ∀ entity, entity ≠ target.entity → after.record? entity = before.record? entity := by
  unfold settleAt at done
  split at done
  · rename_i listed
    have isChosen : position ∈ chosen := by simpa using listed
    obtain ⟨⟨new, foundNew, served⟩, others⟩ := served_of_settle nodup found done
    exact ⟨⟨new, foundNew, by rwa [Turns, if_pos isChosen]⟩, others⟩
  · rename_i unlisted
    have notChosen : position ∉ chosen := by simpa using unlisted
    obtain ⟨rfl, rfl⟩ := yields_pure_iff.mp done
    exact ⟨⟨old, found, by rw [Turns, if_neg notChosen]; exact ⟨rfl, rfl⟩⟩, fun _ _ => rfl⟩

/-- Settling goes through the pool in order, and each target finds its entity as it was before. -/
theorem turns_of_settleChosen {position : Nat} {pool settled : List Target}
    (nodup : ∀ target ∈ pool, target.unresolved.Nodup)
    (apart : (pool.map Target.entity).Nodup)
    (found : ∀ target ∈ pool, ∃ old, before.record? target.entity = some old)
    (done : Yields context (settleChosen path names results chosen position pool) before settled
      after) :
    (∀ (index : Nat) target, pool[index]? = some target → ∃ continued old new,
      settled[index]? = some continued ∧ before.record? target.entity = some old ∧
        after.record? target.entity = some new ∧
        Turns (position + index ∈ chosen) names results target continued old new) ∧
      ∀ entity, (∀ target ∈ pool, target.entity ≠ entity) →
        after.record? entity = before.record? entity := by
  induction pool generalizing position before settled with
  | nil =>
      obtain ⟨rfl, rfl⟩ := yields_pure_iff.mp done
      exact ⟨by simp, fun _ _ => rfl⟩
  | cons target rest inductionHypothesis =>
      rw [settleChosen_cons] at done
      simp only [yields_bind_iff, yields_pure_iff] at done
      obtain ⟨continued, middle, first, others, _, remaining, rfl, rfl⟩ := done
      obtain ⟨alone, apart⟩ := List.nodup_cons.mp apart
      have other (next : Target) (member : next ∈ rest) : next.entity ≠ target.entity :=
        fun same => alone (same ▸ List.mem_map_of_mem member)
      obtain ⟨old, foundOld⟩ := found target List.mem_cons_self
      obtain ⟨⟨new, foundNew, turns⟩, spared⟩ :=
        turns_of_settleAt (nodup target List.mem_cons_self) foundOld first
      have foundRest (next : Target) (member : next ∈ rest) :
          ∃ old, middle.record? next.entity = some old := by
        obtain ⟨old, foundNext⟩ := found next (List.mem_cons_of_mem _ member)
        exact ⟨old, (spared next.entity (other next member)).trans foundNext⟩
      obtain ⟨turnsRest, sparedRest⟩ := inductionHypothesis
        (fun next member => nodup next (List.mem_cons_of_mem _ member)) apart foundRest remaining
      refine ⟨fun index next at_ => ?_, fun entity outside => ?_⟩
      · cases index with
        | zero =>
            cases at_
            exact ⟨continued, old, new, rfl, foundOld,
              (sparedRest target.entity other).trans foundNew, turns⟩
        | succ index =>
            have inRest : next ∈ rest := List.mem_of_getElem? at_
            obtain ⟨later, before, after, foundLater, foundBefore, foundAfter, turnsNext⟩ :=
              turnsRest index next at_
            refine ⟨later, before, after, foundLater, ?_, foundAfter, ?_⟩
            · exact (spared next.entity (other next inRest)).symm.trans foundBefore
            · rwa [Nat.add_right_comm, Nat.add_assoc] at turnsNext
      · obtain ⟨here, outsideRest⟩ := List.forall_mem_cons.mp outside
        exact (sparedRest entity outsideRest).trans (spared entity (Ne.symm here))

namespace Service

/-- While the first pool is held, the fetch adds to what waits and leaves the old entities alone. -/
theorem tidy_fetched (service : Service context before after) (tidy : before.Tidy []) :
    service.fetched.Tidy service.pool ∧ before.spawned <+: service.fetched.spawned ∧
      before.Grows service.fetched := by
  obtain ⟨tidyFetched, _, spawned, grows⟩ :=
    (Run.tidy_fetched tidy service.first (mem_of_bestCandidacy service.best).2).yields
      service.fetches
  exact ⟨tidyFetched, spawned, grows⟩

theorem nodup_pool (service : Service context before after) (tidy : before.Tidy []) :
    ∀ target ∈ service.pool, target.unresolved.Nodup := fun target member =>
  (tidy.own.wellFormed target (mem_waiting_first service.first member)).nodup

theorem tidy_after (service : Service context before after) (tidy : before.Tidy []) :
    after.Tidy [] :=
  (tidy_serveFirst tidy).yields service.yields

theorem own_settled (service : Service context before after) (tidy : before.Tidy []) :
    Target.Own (service.settled ++ service.last.waiting) service.last.arena.size := by
  have settles : Meets context
      (settleChosen service.getter.path service.candidacy.selector.names service.results
        service.candidacy.chosen 0 service.pool) service.fetched
      (fun settled last => List.Forall₂ Target.Continues service.pool settled ∧
        last.Tidy service.pool) (RunState.Tidy service.pool) :=
    meets_settleChosen (fun target _ => settles_tidy _ service.results target)
      (service.tidy_fetched tidy).1
  obtain ⟨pairs, tidyLast⟩ := settles.yields service.settles
  exact tidyLast.own.continues
    (List.rel_append pairs (List.forall₂_same.mpr fun target _ => .refl target))

theorem record_after (service : Service context before after) (entity : Handle) :
    after.record? entity = service.last.record? entity :=
  (congrArg (fun state => RunState.record? state entity) service.ends).trans rfl

/-- A target of the pool that was served is served if it is chosen, and left alone otherwise. The
entities of no other targets are touched. -/
theorem turns (service : Service context before after) (tidy : before.Tidy []) :
    (∀ (index : Nat) target, service.pool[index]? = some target → ∃ continued old new,
      service.settled[index]? = some continued ∧ before.record? target.entity = some old ∧
        after.record? target.entity = some new ∧
        Turns (index ∈ service.candidacy.chosen) service.candidacy.selector.names service.results
          target continued old new) ∧
      ∀ entity : Handle, entity.index < before.arena.size →
        (∀ target ∈ service.pool, target.entity ≠ entity) →
        after.record? entity = before.record? entity := by
  obtain ⟨tidyFetched, _, grows⟩ := service.tidy_fetched tidy
  have own : Target.Own service.pool service.fetched.arena.size :=
    tidyFetched.own.subperm (List.sublist_append_left _ _).subperm
  have found (target : Target) (member : target ∈ service.pool) :
      ∃ old, service.fetched.record? target.entity = some old :=
    ⟨_, Array.getElem?_eq_getElem (own.inside target member)⟩
  have older (target : Target) (member : target ∈ service.pool) :
      service.fetched.record? target.entity = before.record? target.entity :=
    grows.old _ (tidy.own.inside target (mem_waiting_first service.first member))
  obtain ⟨turns, spared⟩ :=
    turns_of_settleChosen (service.nodup_pool tidy) own.apart found service.settles
  refine ⟨fun index target at_ => ?_, fun entity inside outside => ?_⟩
  · obtain ⟨continued, old, new, foundLater, foundOld, foundNew, turn⟩ := turns index target at_
    rw [Nat.zero_add] at turn
    rw [older target (List.mem_of_getElem? at_)] at foundOld
    exact ⟨continued, old, new, foundLater, foundOld, (service.record_after _).trans foundNew, turn⟩
  · exact (service.record_after entity).trans ((spared entity outside).trans (grows.old _ inside))

/-- The other pools stay as they are, and what is left of the first goes behind them. -/
theorem pooled_after (service : Service context before after) (tidy : before.Tidy []) :
    service.others <+: after.pools ∧ after.pooled =
      service.others.flatMap Prod.snd ++ service.settled.filter Target.isActive := by
  obtain ⟨pools, _, _⟩ := service.served (service.nodup_pool tidy)
  rw [RunState.pooled, pools, List.flatMap_append, flatMap_prune]
  simp

end Service

end Run

end EntityResolver
