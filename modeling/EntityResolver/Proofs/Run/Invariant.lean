import EntityResolver.Proofs.Run.Progress

/-!
Invariants of a run.

Besides reading responses, all that a run does to its entities is to store values and to forget
targets. What these keep, spawning, settling and sweeping keep, and so does settling that fails
halfway.
-/

set_option autoImplicit false

namespace EntityResolver.Run

variable {context : RunContext} {invariant : RunState → Prop}
variable {before after : RunState} {target continued : Target}
variable {path : String} {names : List String} {results : FetchResults} {chosen : List Nat}

theorem invariant_resolveGiven {values : FieldValues}
    (stores : ∀ {state other name value}, target.Continues other → name ∈ names →
      (name, value) ∈ values → invariant state →
        invariant (state.learned context.catalog.schema other name value))
    (holds : invariant before)
    (done : Yields context (resolveGiven values names target) before continued after) :
    invariant after := by
  induction names generalizing before target with
  | nil =>
      obtain ⟨rfl, rfl⟩ := yields_pure_iff.mp done
      exact holds
  | cons name rest inductionHypothesis =>
      have storesRest {state : RunState} {other : Target} {name : String}
          {value : FieldValue Handle} (continues : target.Continues other) (listed : name ∈ rest) :
          (name, value) ∈ values → invariant state →
            invariant (state.learned context.catalog.schema other name value) :=
        stores continues (List.mem_cons_of_mem _ listed)
      simp only [resolveGiven] at done
      cases given : values.get? name with
      | none =>
          rw [given] at done
          exact inductionHypothesis storesRest holds done
      | some value =>
          simp only [given, yields_bind_iff] at done
          obtain ⟨resolved, middle, first, remaining⟩ := done
          obtain ⟨rfl, rfl⟩ := yields_resolveAndCache_iff.mp first
          apply inductionHypothesis ?_ ?_ remaining
          · exact fun continues => storesRest ((target.continues_without name).trans continues)
          · apply stores (.refl _) List.mem_cons_self (OrderedMap.mem_of_get? given) holds

structure Settles (context : RunContext) (invariant : RunState → Prop) (names : List String)
    (results : FetchResults) (target : Target) : Prop where
  stores : ∀ {state continued values name value}, target.Continues continued →
    (target.id, .found values) ∈ results → name ∈ names → name ∈ continued.unresolved →
    (name, value) ∈ values → invariant state →
      invariant (state.learned context.catalog.schema continued name value)
  forgets : ∀ {state}, invariant state → invariant (state.forgotten target)

theorem meets_resolveFetched {values : FieldValues}
    (stores : ∀ {state other name value}, target.Continues other → name ∈ names →
      name ∈ other.unresolved → (name, value) ∈ values → invariant state →
        invariant (state.learned context.catalog.schema other name value))
    (holds : invariant before) :
    Meets context (resolveFetched path values names target) before
      (fun continued after => target.Continues continued ∧ invariant after) invariant := by
  induction names generalizing before target with
  | nil =>
      exact (yields_pure_iff.mpr ⟨rfl, rfl⟩ : Yields _ _ _ target before).meets ⟨.refl _, holds⟩
  | cons name rest inductionHypothesis =>
      have storesRest {state : RunState} {other : Target} {name : String}
          {value : FieldValue Handle} (continues : target.Continues other) (listed : name ∈ rest) :
          name ∈ other.unresolved → (name, value) ∈ values → invariant state →
            invariant (state.learned context.catalog.schema other name value) :=
        stores continues (List.mem_cons_of_mem _ listed)
      rw [resolveFetched]
      split
      · rename_i wanted
        split
        · rename_i value given
          apply meets_bind_iff.mpr
          have stored : Yields context (resolveAndCache target name value) before _ _ :=
            yields_resolveAndCache_iff.mpr ⟨rfl, rfl⟩
          apply stored.meets
          apply Meets.mono (inductionHypothesis ?_ ?_) ?_ fun _ failed => failed
          · exact fun continues => storesRest ((target.continues_without name).trans continues)
          · exact stores (.refl _) List.mem_cons_self (by simpa using wanted)
              (OrderedMap.mem_of_get? given) holds
          · rintro continued after ⟨continues, holdsAfter⟩
            exact ⟨(target.continues_without name).trans continues, holdsAfter⟩
        · exact holds
      · exact inductionHypothesis storesRest holds

theorem meets_giveUp (forgets : ∀ {state}, invariant state → invariant (state.forgotten target))
    (holds : invariant before) :
    Meets context (giveUp target) before
      (fun continued after => target.Continues continued ∧ invariant after) invariant := by
  cases isWeak : target.isWeak with
  | true =>
      have given : Yields context (giveUp target) before _ _ :=
        yields_giveUp_iff.mpr ⟨isWeak, rfl, rfl⟩
      exact given.meets ⟨⟨rfl, rfl, rfl, rfl, List.nil_sublist _⟩, forgets holds⟩
  | false =>
      unfold giveUp
      rw [if_neg (by simp [isWeak])]
      apply meets_bind_iff.mpr
      exact (yields_className_iff.mpr ⟨rfl, rfl⟩ : Yields context (className target.cls) before _
        before).meets holds

theorem meets_settle (settles : Settles context invariant names results target)
    (holds : invariant before) :
    Meets context (settle path names results target) before
      (fun continued after => target.Continues continued ∧ invariant after) invariant := by
  unfold settle
  split
  · rename_i values found
    apply meets_resolveFetched ?_ holds
    exact fun continues => settles.stores continues (OrderedMap.mem_of_get? found)
  · exact meets_giveUp settles.forgets holds
  · exact meets_giveUp settles.forgets holds

theorem meets_settleChosen {position : Nat} {pool : List Target}
    (settles : ∀ target ∈ pool, Settles context invariant names results target)
    (holds : invariant before) :
    Meets context (settleChosen path names results chosen position pool) before
      (fun settled after => List.Forall₂ Target.Continues pool settled ∧ invariant after)
      invariant := by
  induction pool generalizing position before with
  | nil =>
      exact (yields_pure_iff.mpr ⟨rfl, rfl⟩ : Yields context (pure []) before _ before).meets
        ⟨.nil, holds⟩
  | cons target rest inductionHypothesis =>
      rw [settleChosen_cons]
      apply meets_bind_iff.mpr
      have first : Meets context (settleAt path names results chosen position target) before
          (fun continued after => target.Continues continued ∧ invariant after) invariant := by
        unfold settleAt
        split
        · exact meets_settle (settles target List.mem_cons_self) holds
        · exact (yields_pure_iff.mpr ⟨rfl, rfl⟩ : Yields context (pure target) before _
            before).meets ⟨.refl _, holds⟩
      apply first.mono ?_ fun _ failed => failed
      rintro continued middle ⟨continues, holdsMiddle⟩
      apply meets_bind_iff.mpr
      apply (inductionHypothesis (fun target member => settles target (List.mem_cons_of_mem _ member))
        holdsMiddle).mono ?_ fun _ failed => failed
      rintro others after ⟨all, holdsAfter⟩
      exact (yields_pure_iff.mpr ⟨rfl, rfl⟩ : Yields context (pure _) after _ after).meets
        ⟨.cons continues all, holdsAfter⟩

/-- Resolving fields of the target from the cache keeps the invariant, if the cache could serve them
in a state of which the invariant holds too. -/
def Restores (context : RunContext) (invariant : RunState → Prop) (target : Target) : Prop :=
  ∀ {earlier state restored continued name field kept value}, invariant earlier →
    (name, kept) ∈ servable earlier target → target.Continues continued →
    context.catalog.schema.field? continued.cls name = some field → invariant state →
    Yields context (FieldValue.traverseEntities
      (fun id => alloc (field.kind.target?.getD continued.cls) (some id) []) kept) state value
      restored →
    invariant { restored.stored .cache continued name value with
      stats := { restored.stats with cacheHits := restored.stats.cacheHits + 1 } }

theorem invariant_resolveCached {earlier : RunState} {served : List (String × FieldValue String)}
    {current : Target} (restores : Restores context invariant target)
    (holdsEarlier : invariant earlier) (fromCache : served ⊆ servable earlier target)
    (continues : target.Continues current) (holds : invariant before)
    (done : Yields context (resolveCached served current) before continued after) :
    invariant after := by
  induction served generalizing before current with
  | nil =>
      obtain ⟨rfl, rfl⟩ := yields_pure_iff.mp done
      exact holds
  | cons entry rest inductionHypothesis =>
      obtain ⟨name, kept⟩ := entry
      obtain ⟨head, fromCacheRest⟩ := List.cons_subset.mp fromCache
      simp only [resolveCached, yields_bind_iff, yields_schema_iff] at done
      obtain ⟨_, _, ⟨rfl, rfl⟩, done⟩ := done
      split at done
      · exact inductionHypothesis fromCacheRest continues holds done
      · rename_i field found
        simp only [yields_bind_iff, yields_resolve_iff, yields_modify_iff] at done
        obtain ⟨value, restored, traversed, _, _, ⟨rfl, rfl⟩, _, _, rfl, remaining⟩ := done
        apply inductionHypothesis fromCacheRest ?_ ?_ remaining
        · exact continues.trans (current.continues_without name)
        · exact restores holdsEarlier head continues found holds traversed

theorem invariant_sweepPool {pool swept : List Target}
    (restores : ∀ target ∈ pool, Restores context invariant target) (holds : invariant before)
    (done : Yields context (sweepPool pool) before swept after) : invariant after := by
  induction pool generalizing before swept with
  | nil =>
      obtain ⟨rfl, rfl⟩ := yields_pure_iff.mp done
      exact holds
  | cons target rest inductionHypothesis =>
      simp only [sweepPool, yields_bind_iff, yields_get_iff, yields_pure_iff] at done
      obtain ⟨_, begun, ⟨rfl, rfl⟩, continued, middle, first, others, _, remaining, rfl, rfl⟩ :=
        done
      have holdsMiddle := invariant_resolveCached (restores target List.mem_cons_self) holds
        (List.Subset.refl _) (.refl _) holds first
      exact inductionHypothesis (fun other member => restores other (List.mem_cons_of_mem _ member))
        holdsMiddle remaining

theorem invariant_sweepPools {pools swept : List (ClassId × List Target)}
    (restores : ∀ target ∈ pools.flatMap Prod.snd, Restores context invariant target)
    (holds : invariant before) (done : Yields context (sweepPools pools) before swept after) :
    invariant after := by
  induction pools generalizing before swept with
  | nil =>
      obtain ⟨rfl, rfl⟩ := yields_pure_iff.mp done
      exact holds
  | cons entry rest inductionHypothesis =>
      obtain ⟨cls, pool⟩ := entry
      rw [List.flatMap_cons] at restores
      simp only [sweepPools, yields_bind_iff, yields_pure_iff] at done
      obtain ⟨continued, middle, first, others, _, remaining, rfl, rfl⟩ := done
      have holdsMiddle := invariant_sweepPool
        (fun target member => restores target (List.mem_append_left _ member)) holds first
      exact inductionHypothesis (fun target member => restores target (List.mem_append_right _ member))
        holdsMiddle remaining

variable {good bad : RunState → Prop}

theorem meets_serveFirst {cls : ClassId} {pool : List Target}
    {others : List (ClassId × List Target)} (first : before.pools = (cls, pool) :: others)
    (stops : bad { before with pools := others })
    (serves : ∀ getter candidacy,
      bestCandidacy? pool (context.catalog.gettersOf cls) = some (getter, candidacy) →
      Meets context (getter.fetch candidacy) { before with pools := others }
        (fun results fetched => Meets context
          (settleChosen getter.path candidacy.selector.names results candidacy.chosen 0 pool) fetched
          (fun settled last => good { last with pools := last.pools ++ prune [(cls, settled)] }) bad)
        bad) : Meets context serveFirst before (fun _ => good) bad := by
  unfold serveFirst
  apply meets_bind_iff.mpr
  apply (yields_get_iff.mpr ⟨rfl, rfl⟩).meets
  simp only [first]
  apply meets_bind_iff.mpr
  apply (yields_modify_iff.mpr rfl : Yields _ _ _ () _).meets
  apply meets_bind_iff.mpr
  apply (yields_read_iff.mpr ⟨rfl, rfl⟩).meets
  cases best : bestCandidacy? pool (context.catalog.gettersOf cls) with
  | none =>
      apply meets_bind_iff.mpr
      exact (yields_className_iff.mpr ⟨rfl, rfl⟩ : Yields context (className cls) _ _ _).meets stops
  | some chosen =>
      obtain ⟨getter, candidacy⟩ := chosen
      apply meets_bind_iff.mpr
      apply (serves getter candidacy best).mono ?_ fun _ failed => failed
      intro results fetched settles
      apply meets_bind_iff.mpr
      apply settles.mono ?_ fun _ failed => failed
      exact fun settled last ends => (yields_modify_iff.mpr rfl : Yields _ _ _ () _).meets ends

theorem meets_round {served : Unit → RunState → Prop}
    (serves : Meets context serveFirst before.counted served bad)
    (sweeps : ∀ middle swept last, served () middle →
      Yields context (sweepPools middle.filled.pools) middle.filled swept last →
        good { last with pools := prune swept }) :
    Meets context round before (fun _ => good) bad := by
  change Meets context (serveFirst >>= _) before.counted _ _
  apply meets_bind_iff.mpr
  apply serves.mono ?_ fun _ failed => failed
  intro _ middle holds
  have succeeds : Succeeds context (sweepPools middle.filled.pools) middle.filled :=
    succeeds_sweepPools _ _
  obtain ⟨swept, last, done⟩ := succeeds
  change Meets context (sweepPools middle.filled.pools >>= _) middle.filled _ _
  apply meets_bind_iff.mpr
  apply done.meets
  exact (yields_modify_iff.mpr rfl : Yields _ _ _ () _).meets (sweeps middle swept last holds done)

theorem meets_rounds (limit : Nat)
    (step : ∀ {state}, good state → state.pools ≠ [] → Meets context round state (fun _ => good) bad)
    (start : good before) :
    Meets context (rounds limit) before
      (fun isDone after => good after ∧ (isDone = true → after.pools = [])) bad := by
  induction limit generalizing before with
  | zero =>
      have done : Yields context (rounds 0) before before.pools.isEmpty before := rfl
      exact done.meets ⟨start, List.isEmpty_iff.mp⟩
  | succ limit inductionHypothesis =>
      by_cases empty : before.pools = []
      · have done : Yields context (rounds (limit + 1)) before true before :=
          rounds_of_isEmpty empty _
        exact done.meets ⟨start, fun _ => empty⟩
      · unfold Meets
        rw [rounds_succ empty]
        apply meets_bind_iff.mpr
        apply (step start empty).mono ?_ fun _ failed => failed
        exact fun _ middle holds => inductionHypothesis holds

end EntityResolver.Run
