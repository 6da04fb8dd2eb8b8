import EntityResolver.Proofs.Evaluation.Refinement
import EntityResolver.Proofs.Run.Reports

/-!
Requests of a session, told by what their runs come to.
-/

set_option autoImplicit false

namespace EntityResolver

/-- What is left out is left out before or after equal texts are dropped. -/
theorem Candidacy.distinct_filter (kept : String → Bool) (texts : List String) :
    distinct (texts.filter kept) = (distinct texts).filter kept := by
  induction texts with
  | nil => rfl
  | cons text rest inductionHypothesis =>
      rw [List.filter_cons, distinct, List.filter_cons]
      split
      · rw [distinct, inductionHypothesis, List.filter_comm]
      · rename_i dropped
        rw [inductionHypothesis, List.filter_filter]
        refine List.filter_congr fun other _ => ?_
        by_cases same : other = text
        · simp_all
        · simp [same]

theorem Candidacy.distinct_eq_eraseDups (texts : List String) :
    distinct texts = texts.eraseDups := by
  induction size : texts.length using Nat.strong_induction_on generalizing texts with
  | _ length inductionHypothesis =>
      cases texts with
      | nil => rfl
      | cons text rest =>
          have shorter : (rest.filter fun other => !other == text).length < length := by
            have filtered := List.length_filter_le (fun other => !other == text) rest
            rw [List.length_cons] at size
            omega
          rw [distinct, List.eraseDups_cons, ← inductionHypothesis _ shorter _ rfl, distinct_filter]
          rfl

namespace RunState

variable {schema : Schema} {state : RunState} {entity : Handle} {record : EntityRecord}

theorem tree_of_record (schema : Schema) (found : state.record? entity = some record)
    (depth : Nat) :
    (state.tree schema depth entity).cls = record.cls ∧
      (state.tree schema depth entity).className = schema.className record.cls ∧
      (state.tree schema depth entity).id = record.id := by
  cases depth <;> simp [tree, found, Entity.bare]

/-- The fields of a tree are the values of its entity, with trees for what these refer to. -/
theorem exists_fields (schema : Schema) (found : state.record? entity = some record) :
    ∃ depth, (state.materialize schema entity).fields =
      record.values.map fun entry => (entry.1, entry.2.mapEntities (state.tree schema depth)) := by
  obtain ⟨depth, size⟩ : ∃ depth, state.arena.size = depth + 1 :=
    Nat.exists_eq_succ_of_ne_zero (Nat.ne_zero_of_lt (index_lt_of_record found))
  exact ⟨depth, by simp only [materialize, size, tree, found]⟩

end RunState

namespace Run

variable {context : RunContext} {before after : RunState} {limit : Nat} {α β γ : Type}

theorem yields_tree_iff {handle : Handle} {entity : Entity} :
    Yields context (Session.tree handle) before entity after ↔
      entity = before.materialize context.catalog.schema handle ∧ after = before := by
  simp only [Session.tree, yields_bind_iff, yields_get_iff, yields_schema_iff, yields_pure_iff]
  constructor
  · rintro ⟨_, _, ⟨rfl, rfl⟩, _, _, ⟨rfl, rfl⟩, rfl, rfl⟩
    exact ⟨rfl, rfl⟩
  · rintro ⟨rfl, rfl⟩
    exact ⟨_, _, ⟨rfl, rfl⟩, _, _, ⟨rfl, rfl⟩, rfl, rfl⟩

theorem yields_presentTrees_iff {roots : List (String × Handle)} {found : List (String × Entity)} :
    Yields context (Session.presentTrees roots) before found after ↔
      found = (roots.map fun root =>
        (root.1, before.materialize context.catalog.schema root.2)).filter
          (fun entry => entry.2.isPresent) ∧ after = before := by
  induction roots generalizing before after found with
  | nil => exact yields_pure_iff
  | cons root rest inductionHypothesis =>
      obtain ⟨id, handle⟩ := root
      simp only [Session.presentTrees, yields_bind_iff, yields_tree_iff, yields_pure_iff,
        inductionHypothesis, List.map_cons, List.filter_cons]
      constructor
      · rintro ⟨_, _, ⟨rfl, rfl⟩, _, _, ⟨rfl, rfl⟩, rfl, rfl⟩
        exact ⟨rfl, rfl⟩
      · rintro ⟨rfl, rfl⟩
        exact ⟨_, _, ⟨rfl, rfl⟩, _, _, ⟨rfl, rfl⟩, rfl, rfl⟩

theorem yields_stepsWithin_iff {want : Run α} {finish : α → Run β} {result : β} :
    Yields context (Session.stepsWithin limit want finish) before result after ↔
      ∃ wanted placed ready final, Yields context want before wanted placed ∧
        Yields context prepare placed () ready ∧ Yields context (rounds limit) ready true final ∧
        Yields context (finish wanted) { final with cache := [] } result after := by
  have split : executeWithin limit = prepare >>= fun _ => conclude limit := rfl
  simp only [Session.stepsWithin, split, yields_bind_iff, yields_conclude_iff]
  constructor
  · rintro ⟨wanted, placed, first, _, _, ⟨_, ready, prepared, final, rounds, _, rfl⟩, finished⟩
    exact ⟨wanted, placed, ready, final, first, prepared, rounds, finished⟩
  · rintro ⟨wanted, placed, ready, final, first, prepared, rounds, finished⟩
    exact ⟨wanted, placed, first, _, _, ⟨⟨⟩, ready, prepared, final, rounds, rfl, rfl⟩, finished⟩

/-- A request is a run, and what is then taken from its end. -/
theorem steps_eq_bind (want : Run α) (finish : α → Run β) :
    Session.steps want finish = Session.steps want pure >>= finish := by
  simp only [Session.steps, Session.stepsWithin, bind_assoc, pure_bind]

theorem steps_map (want : Run α) (change : α → γ) :
    Session.steps (change <$> want) pure = change <$> Session.steps want pure := by
  simp only [Session.steps, Session.stepsWithin, map_eq_pure_bind, bind_assoc, pure_bind]

end Run

namespace Session

open Run

variable {session : Session} {earlier after : SessionState} {α β : Type}
variable {want : Run α} {finish : α → Run β} {wanted : α} {result : β} {ended final : RunState}

theorem run_of_yields
    (done : Yields session.context (steps want finish) { calls := earlier.calls } result ended) :
    session.run want finish earlier = .ok result ⟨ended.calls, ended.stats⟩ := by
  unfold run ReaderT.run
  rw [done]

theorem run_of_fails {error : ResolveError}
    (failed : steps want finish session.context { calls := earlier.calls } = .error error ended) :
    session.run want finish earlier = .error error { earlier with calls := ended.calls } := by
  unfold run ReaderT.run
  rw [failed]

theorem run_eq_ok_iff : session.run want finish earlier = .ok result after ↔
    ∃ ended, Yields session.context (steps want finish) { calls := earlier.calls } result ended ∧
      after = ⟨ended.calls, ended.stats⟩ := by
  constructor
  · intro done
    cases outcome : steps want finish session.context { calls := earlier.calls } with
    | ok found ended =>
        rw [run_of_yields outcome] at done
        cases done
        exact ⟨ended, outcome, rfl⟩
    | error error ended =>
        rw [run_of_fails outcome] at done
        cases done
  · rintro ⟨ended, done, rfl⟩
    exact run_of_yields done

/-- A request that fails does so because its run does, if the end of a run can always be taken. -/
theorem fails_of_run_eq_error {demands : List Demand} {error : ResolveError}
    (places : Demand.placeAll demands = (do let _ ← want))
    (quiet : ∀ wanted state, Succeeds session.context (finish wanted) state)
    (failed : session.run want finish earlier = .error error after) :
    Fails session.context (Demand.runWithin session.roundLimit demands)
      { calls := earlier.calls } error := by
  cases outcome : steps want finish session.context { calls := earlier.calls } with
  | ok result ended =>
      rw [run_of_yields outcome] at failed
      cases failed
  | error raised ended =>
      rw [run_of_fails outcome] at failed
      cases failed
      have fails : Fails session.context (stepsWithin session.roundLimit want finish)
          { calls := earlier.calls } error := ⟨ended, outcome⟩
      rw [Demand.runWithin, places, fails_bind_iff]
      rcases fails_bind_iff.mp fails with fails | ⟨wanted, placed, first, fails⟩
      · exact .inl (fails_bind_iff.mpr (.inl fails))
      · refine .inr ⟨⟨⟩, placed, yields_bind_iff.mpr ⟨wanted, placed, first, rfl⟩, ?_⟩
        rcases fails_bind_iff.mp fails with fails | ⟨_, final, _, fails⟩
        · exact fails
        · exact absurd fails (not_fails_of_succeeds (quiet wanted final))

theorem run_of_settled (session : Session)
    (settled : Yields session.context (steps want pure) { calls := earlier.calls } wanted ended)
    (finished : Yields session.context (finish wanted) ended result final) :
    session.run want finish earlier = .ok result ⟨final.calls, final.stats⟩ := by
  apply run_of_yields
  rw [steps_eq_bind]
  exact yields_bind_iff.mpr ⟨wanted, ended, settled, finished⟩

/-- A run that fails is what the request comes to, whatever it would take from the end. -/
theorem run_of_unsettled (session : Session) (finish : α → Run β) {error : ResolveError}
    (failed : steps want pure session.context { calls := earlier.calls } = .error error ended) :
    session.run want finish earlier = .error error { earlier with calls := ended.calls } := by
  apply run_of_fails
  rw [steps_eq_bind]
  exact bind_of_error failed finish

end Session

end EntityResolver
