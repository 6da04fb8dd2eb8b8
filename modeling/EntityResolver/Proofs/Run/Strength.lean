import EntityResolver.Proofs.Run.Absence

/-!
How targets become strong.

A target is strong from the beginning if a picker has spawned its entity. Others are weak, until a
field of theirs is resolved, be it by a fetch or from the cache.
-/

set_option autoImplicit false

namespace EntityResolver

/-- The same wish later on. If it is strong by now, it was so before or has had a field resolved. -/
structure Target.Hardens (before after : Target) : Prop extends before.Continues after where
  earned : after.isWeak = false → before.isWeak = false ∨
    ∃ name ∈ before.selector.names, name ∉ after.unresolved

namespace Target

variable {first second third target : Target} {name : String}

theorem Hardens.refl (target : Target) : target.Hardens target :=
  ⟨.refl _, .inl⟩

theorem Hardens.trans (left : first.Hardens second) (right : second.Hardens third) :
    first.Hardens third where
  toContinues := left.toContinues.trans right.toContinues
  earned isStrong := by
    rcases right.earned isStrong with middle | ⟨name, selected, resolved⟩
    · refine (left.earned middle).imp_right fun ⟨name, selected, resolved⟩ => ?_
      exact ⟨name, selected, fun waits => resolved (right.unresolved.subset waits)⟩
    · exact .inr ⟨name, left.selector ▸ selected, resolved⟩

theorem WellFormed.hardens_without (valid : target.WellFormed)
    (selected : name ∈ target.selector.names) : target.Hardens (target.without name) :=
  ⟨target.continues_without name, fun _ => .inr ⟨name, selected, valid.nodup.not_mem_erase⟩⟩

end Target

namespace Run

variable {context : RunContext} {before after : RunState} {target continued : Target}
variable {path : String} {names : List String} {results : FetchResults} {chosen : List Nat}

theorem hardens_resolveFetched {values : FieldValues} (valid : target.WellFormed)
    (done : Yields context (resolveFetched path values names target) before continued after) :
    target.Hardens continued := by
  induction names generalizing before target with
  | nil =>
      obtain ⟨rfl, rfl⟩ := yields_pure_iff.mp done
      exact .refl _
  | cons name rest inductionHypothesis =>
      simp only [resolveFetched] at done
      split at done
      · rename_i wanted
        split at done
        · obtain ⟨resolved, middle, first, remaining⟩ := yields_bind_iff.mp done
          obtain ⟨rfl, _⟩ := yields_resolveAndCache_iff.mp first
          have hardens := valid.hardens_without (valid.selected (by simpa using wanted))
          exact hardens.trans
            (inductionHypothesis (valid.continues hardens.toContinues) remaining)
        · exact absurd done not_yields_throw
      · exact inductionHypothesis valid done

theorem hardens_settle (valid : target.WellFormed)
    (done : Yields context (settle path names results target) before continued after) :
    target.Hardens continued := by
  have given (finished : Yields context (giveUp target) before continued after) :
      target.Hardens continued := by
    obtain ⟨_, rfl, _⟩ := yields_giveUp_iff.mp finished
    exact ⟨(quiet_giveUp finished).1, .inl⟩
  unfold settle at done
  split at done
  · exact hardens_resolveFetched valid done
  · exact given done
  · exact given done

theorem hardens_settleChosen {position : Nat} {pool settled : List Target}
    (valid : ∀ target ∈ pool, target.WellFormed)
    (done : Yields context (settleChosen path names results chosen position pool) before settled
      after) : List.Forall₂ Target.Hardens pool settled := by
  induction pool generalizing position before settled with
  | nil =>
      obtain ⟨rfl, rfl⟩ := yields_pure_iff.mp done
      exact .nil
  | cons target rest inductionHypothesis =>
      rw [settleChosen_cons] at done
      simp only [yields_bind_iff, yields_pure_iff] at done
      obtain ⟨continued, middle, first, others, _, remaining, rfl, rfl⟩ := done
      refine .cons ?_ (inductionHypothesis (fun other member =>
        valid other (List.mem_cons_of_mem _ member)) remaining)
      unfold settleAt at first
      split at first
      · exact hardens_settle (valid target List.mem_cons_self) first
      · obtain ⟨rfl, rfl⟩ := yields_pure_iff.mp first
        exact .refl _

theorem hardens_resolveCached {served : List (String × FieldValue String)}
    (valid : target.WellFormed) (selected : served.map Prod.fst ⊆ target.selector.names)
    (done : Yields context (resolveCached served target) before continued after) :
    target.Hardens continued := by
  induction served generalizing before target with
  | nil =>
      obtain ⟨rfl, rfl⟩ := yields_pure_iff.mp done
      exact .refl _
  | cons entry rest inductionHypothesis =>
      obtain ⟨name, kept⟩ := entry
      obtain ⟨here, selectedRest⟩ := List.cons_subset.mp selected
      simp only [resolveCached, yields_bind_iff, yields_schema_iff] at done
      obtain ⟨_, _, ⟨rfl, rfl⟩, done⟩ := done
      split at done
      · exact inductionHypothesis valid selectedRest done
      · simp only [yields_bind_iff, yields_resolve_iff, yields_modify_iff] at done
        obtain ⟨value, restored, _, _, _, ⟨rfl, rfl⟩, _, _, rfl, remaining⟩ := done
        have hardens := valid.hardens_without here
        exact hardens.trans
          (inductionHypothesis (valid.continues hardens.toContinues) selectedRest remaining)

theorem hardens_sweepPool {pool swept : List Target} (valid : ∀ target ∈ pool, target.WellFormed)
    (done : Yields context (sweepPool pool) before swept after) :
    List.Forall₂ Target.Hardens pool swept := by
  induction pool generalizing before swept with
  | nil =>
      obtain ⟨rfl, rfl⟩ := yields_pure_iff.mp done
      exact .nil
  | cons target rest inductionHypothesis =>
      simp only [sweepPool, yields_bind_iff, yields_get_iff, yields_pure_iff] at done
      obtain ⟨_, begun, ⟨rfl, rfl⟩, continued, middle, first, others, _, remaining, rfl, rfl⟩ :=
        done
      have here := valid target List.mem_cons_self
      have served := List.Subset.trans (Sound.sublist_servable begun target).subset here.selected
      exact .cons (hardens_resolveCached here served first) (inductionHypothesis
        (fun other member => valid other (List.mem_cons_of_mem _ member)) remaining)

theorem hardens_sweepPools {pools swept : List (ClassId × List Target)}
    (valid : ∀ target ∈ pools.flatMap Prod.snd, target.WellFormed)
    (done : Yields context (sweepPools pools) before swept after) :
    List.Forall₂ Target.Hardens (pools.flatMap Prod.snd) (swept.flatMap Prod.snd) := by
  induction pools generalizing before swept with
  | nil =>
      obtain ⟨rfl, rfl⟩ := yields_pure_iff.mp done
      exact .nil
  | cons entry rest inductionHypothesis =>
      obtain ⟨cls, pool⟩ := entry
      simp only [sweepPools, yields_bind_iff, yields_pure_iff] at done
      obtain ⟨continued, middle, first, others, _, remaining, rfl, rfl⟩ := done
      rw [List.flatMap_cons] at valid ⊢
      exact List.rel_append (hardens_sweepPool (fun target member =>
        valid target (List.mem_append_left _ member)) first)
        (inductionHypothesis (fun target member => valid target (List.mem_append_right _ member))
          remaining)

/-- If the target is strong, its entity must exist or has a field already. -/
def Earned (state : RunState) (target : Target) : Prop :=
  target.isWeak = false →
    (∃ origin ∈ state.origins, origin.entity = target.entity ∧ origin.isWeak = false) ∨
      ∃ name ∈ target.selector.names, name ∉ target.unresolved

theorem Earned.hardens (earned : Earned before target) (hardens : target.Hardens continued)
    (origins : before.origins ⊆ after.origins) : Earned after continued := by
  intro isStrong
  rcases hardens.earned isStrong with already | ⟨name, selected, resolved⟩
  · rcases earned already with ⟨origin, spawned, same, strong⟩ | ⟨name, selected, resolved⟩
    · exact .inl ⟨origin, origins spawned, same.trans hardens.entity.symm, strong⟩
    · exact .inr ⟨name, hardens.selector ▸ selected,
        fun waits => resolved (hardens.unresolved.subset waits)⟩
  · exact .inr ⟨name, hardens.selector ▸ selected, resolved⟩

theorem earned_round {truth : Truth context.catalog.schema} (faithful : Faithful context truth)
    (steady : Steady truth before) (waiting : before.pools ≠ [])
    (earned : ∀ target ∈ before.pooled, Earned before target)
    (done : Yields context round before () after) :
      ∀ target ∈ after.pooled, Earned after target := by
  obtain ⟨served, swept, last, ⟨service⟩, sweeps, rfl⟩ := round_cases waiting done
  have start := steady_counted steady
  have pooled : before.pooled = service.pool ++ service.others.flatMap Prod.snd :=
    service.pooled_before
  have valid : ∀ target ∈ service.pool, target.WellFormed := fun target member =>
    steady.sound.wellFormed (pooled ▸ List.mem_append_left _ member)
  obtain ⟨soundFilled, keeps, _⟩ := start.filled faithful service
  have extended := (closed_extending.fetch Scope.reads_everything).yields service.fetches
  have origins : service.fetched.origins = served.filled.origins := by
    obtain ⟨_, _, _, _, same⟩ :=
      (quiet_settleChosen (fun target member => (valid target member).nodup) service.settles).2.1
    exact (congrArg RunState.origins same).symm.trans
      (congrArg RunState.origins service.ends).symm
  have filled (target : Target) (member : target ∈ served.filled.pooled) :
      Earned served.filled target := by
    have parts := (service.perm_pooled fun target member => (valid target member).nodup).mem_iff.mp
      member
    rcases List.mem_append.mp parts with parts | new
    · rcases List.mem_append.mp parts with other | settled
      · exact (earned target (pooled ▸ List.mem_append_right _ other)).hardens (.refl _)
          fun _ => keeps.origins _
      · obtain ⟨old, inPool, hardens⟩ := FieldValue.exists_related
          (hardens_settleChosen valid service.settles).flip (List.mem_of_mem_filter settled)
        exact (earned old (pooled ▸ List.mem_append_left _ inPool)).hardens hardens
          fun _ => keeps.origins _
    · rcases extended.spawned target (List.mem_of_mem_filter new) with old | strong
      · exact absurd (steady.none ▸ old) List.not_mem_nil
      · exact fun _ => .inl (origins ▸ strong)
  intro target member
  rw [RunState.pooled, flatMap_prune] at member
  obtain ⟨old, inPools, hardens⟩ := FieldValue.exists_related
    (hardens_sweepPools (fun target member => soundFilled.wellFormed member) sweeps).flip
    (List.mem_of_mem_filter member)
  refine (filled old inPools).hardens hardens ?_
  obtain ⟨_, _, _, _, same⟩ := (quiet_sweepPools sweeps).2
  exact (congrArg RunState.origins same) ▸ List.Subset.refl _

theorem Passes.earned {truth : Truth context.catalog.schema} (faithful : Faithful context truth)
    (steady : Steady truth before) (earned : ∀ target ∈ before.pooled, Earned before target)
    (passes : Passes context before after) : ∀ target ∈ after.pooled, Earned after target := by
  induction passes with
  | refl => exact earned
  | tail passes last inductionHypothesis =>
      exact earned_round faithful (Passes.steady faithful steady passes).1 last.1
        inductionHypothesis last.2

end Run

end EntityResolver
