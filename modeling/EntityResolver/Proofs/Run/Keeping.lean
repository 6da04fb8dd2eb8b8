import EntityResolver.Proofs.Run.Composed
import EntityResolver.Proofs.Run.Invariant

/-!
What steps leave alone, and what they cost.

Reading leaves the calls and the statistics alone, and before the first round nothing is served and
no round is counted. So a fetch costs what it calls.
-/

set_option autoImplicit false

namespace EntityResolver

namespace RunState

def costs (state : RunState) : List Call × RunStats :=
  (state.calls, state.stats)

/-- The targets that are served in rounds, and the rounds and what they found in the cache. -/
def progress (state : RunState) : List (ClassId × List Target) × Nat × Nat :=
  (state.pools, state.stats.rounds, state.stats.cacheHits)

end RunState

namespace Run

variable {context : RunContext} {before middle after : RunState} {α β τ : Type}

/-- Whether it fails or not, the step leaves what is looked at alone. -/
def Keeps (look : RunState → τ) (step : Run α) : Prop :=
  ∀ context before, Meets context step before (fun _ after => look after = look before)
    (fun after => look after = look before)

section Keeps

variable {look : RunState → τ}

theorem Keeps.yields {step : Run α} {result : α} (keeps : Keeps look step)
    (done : Yields context step before result after) : look after = look before :=
  (meets_iff.mp (keeps context before)).1 result after done

theorem keeps_pure (value : α) : Keeps look (pure value : Run α) :=
  fun _ _ => rfl

theorem Keeps.bind {step : Run α} {next : α → Run β} (first : Keeps look step)
    (rest : ∀ value, Keeps look (next value)) : Keeps look (step >>= next) := by
  intro context before
  refine meets_bind_iff.mpr ((first context before).mono ?_ fun _ same => same)
  intro value middle same
  exact (rest value context middle).mono (fun _ _ sameToo => sameToo.trans same)
    fun _ sameToo => sameToo.trans same

theorem keeps_of_yields {step : Run α}
    (done : ∀ context before, ∃ result after,
      Yields context step before result after ∧ look after = look before) : Keeps look step := by
  intro context before
  obtain ⟨result, after, yields, same⟩ := done context before
  exact yields.meets same

/-- Spawning changes the arena, the cache, the ledger and the queue, and nothing else. -/
theorem spawn_changes {cls : ClassId} {id : String} {selector : Selector} {values : FieldValues}
    {isWeak : Bool} {entity : Handle}
    (done : Yields context (spawn cls id selector values isWeak) before entity after) :
    ∃ arena events cache origins spawned, after = { before with
      arena := arena, events := events, cache := cache, origins := origins,
        spawned := spawned } := by
  obtain ⟨rfl, target, resolved, given, rfl⟩ := yields_spawn_iff.mp done
  let origin := before.next cls id selector isWeak
  let changes (state : RunState) : Prop :=
    ∃ arena events cache, state =
      { before.begun origin with arena := arena, events := events, cache := cache }
  have learns {state : RunState} {other : Target} {name : String} {value : FieldValue Handle}
      (changed : changes state) :
      changes (state.learned context.catalog.schema other name value) := by
    obtain ⟨_, _, _, rfl⟩ := changed
    unfold RunState.learned RunState.stored RunState.kept
    split <;> exact ⟨_, _, _, rfl⟩
  have started : changes (before.begun origin) := ⟨_, _, _, rfl⟩
  obtain ⟨_, _, _, rfl⟩ := invariant_resolveGiven (fun _ _ _ => learns) started given
  exact ⟨_, _, _, _, _, rfl⟩

def Untouched (look : RunState → τ) : Prop :=
  ∀ state arena events cache origins spawned, look { state with
    arena := arena, events := events, cache := cache, origins := origins, spawned := spawned } =
      look state

theorem keeps_spawn (untouched : Untouched look) (cls : ClassId) (id : String) (selector : Selector)
    (values : FieldValues) (isWeak : Bool) : Keeps look (spawn cls id selector values isWeak) := by
  refine keeps_of_yields fun context before => ?_
  obtain ⟨entity, after, done⟩ : Succeeds context (spawn cls id selector values isWeak) before :=
    succeeds_spawn _ _ _ _ _ _
  obtain ⟨_, _, _, _, _, same⟩ := spawn_changes done
  exact ⟨entity, after, done, same ▸ untouched _ _ _ _ _ _⟩

theorem closedUnderSteps_keeps (untouched : Untouched look) :
    ClosedUnderSteps .everything (Keeps look) where
  pure := keeps_pure
  bind := Keeps.bind
  throw _ _ _ := rfl
  read next := Keeps.bind (fun _ _ => rfl) fun context => next context trivial
  spawn cls id selector values := keeps_spawn untouched cls id selector values false
  alloc _ _ _ := keeps_of_yields fun _ before =>
    ⟨_, _, yields_alloc_iff.mpr ⟨rfl, rfl⟩, untouched before _ _ _ _ _⟩

theorem closedUnderReading_keeps (untouched : Untouched look) :
    ClosedUnderReading .everything (Keeps look) :=
  (closedUnderSteps_keeps untouched).reading fun _ _ => rfl

theorem closedUnderCalling_keeps (untouched : Untouched look)
    (calls : ∀ state request, look (called state request) = look state) :
    ClosedUnderCalling .everything (Keeps look) where
  toClosedUnderReading := closedUnderReading_keeps untouched
  call _ _ := keeps_of_yields fun _ _ => ⟨_, _, yields_call_iff.mpr ⟨rfl, rfl⟩, calls _ _⟩

end Keeps

theorem reading_keeps_costs : ClosedUnderReading .everything (Keeps RunState.costs) :=
  closedUnderReading_keeps fun _ _ _ _ _ _ => rfl

theorem calling_keeps_prerequisites : ClosedUnderCalling .everything (Keeps RunState.prerequisites) :=
  closedUnderCalling_keeps (fun _ _ _ _ _ _ => rfl) fun _ _ => rfl

/-- Before the first round nothing is served. -/
theorem beginning_keeps_progress :
    ClosedUnderBeginning .everything (Keeps RunState.progress) where
  toClosedUnderCalling := closedUnderCalling_keeps (fun _ _ _ _ _ _ => rfl) fun _ _ => rfl
  get _ _ := rfl
  root := keeps_spawn fun _ _ _ _ _ _ => rfl
  arrange _ _ _ _ := rfl

structure Spends (count : Nat) (before after : RunState) : Prop where
  calls : ∃ made, after.calls = before.calls ++ made ∧ made.length = count
  stats : after.stats = { before.stats with remoteCalls := before.stats.remoteCalls + count }

theorem spends_of_costs (same : after.costs = before.costs) : Spends 0 before after :=
  ⟨⟨[], (congrArg Prod.fst same).trans (List.append_nil _).symm, rfl⟩, congrArg Prod.snd same⟩

theorem spends_called (state : RunState) (request : Call) : Spends 1 state (called state request) :=
  ⟨⟨[request], rfl, rfl⟩, rfl⟩

theorem Spends.trans {count more : Nat} (first : Spends count before middle)
    (second : Spends more middle after) : Spends (count + more) before after := by
  obtain ⟨made, calls, rfl⟩ := first.calls
  obtain ⟨madeToo, callsToo, rfl⟩ := second.calls
  refine ⟨⟨made ++ madeToo, by rw [callsToo, calls, List.append_assoc], List.length_append⟩, ?_⟩
  rw [second.stats, first.stats, Nat.add_assoc]

theorem Spends.keeps {count : Nat} (first : Spends count before middle)
    (same : after.costs = middle.costs) : Spends count before after :=
  first.trans (spends_of_costs same)

theorem spends_of_call {path : String} {params : Params} {next : Json → Run α} {result : α}
    (reads : ∀ response, Keeps RunState.costs (next response))
    (done : Yields context (callOrFail path params >>= next) before result after) :
    Spends 1 before after := by
  obtain ⟨response, _, answered, remaining⟩ := yields_bind_iff.mp done
  obtain ⟨_, rfl⟩ := yields_callOrFail_iff.mp answered
  exact (spends_called before _).keeps ((reads response).yields remaining)

theorem SingleGetter.spends_fetchAll {method : SingleGetter} {selector : Selector}
    {ids : List String} {results : FetchResults}
    (done : Yields context (method.fetchAll selector ids) before results after) :
    Spends ids.length before after := by
  induction ids generalizing before results with
  | nil =>
      obtain ⟨_, rfl⟩ := yields_pure_iff.mp done
      exact spends_of_costs rfl
  | cons id rest inductionHypothesis =>
      simp only [SingleGetter.fetchAll, method.fetch_eq, yields_bind_iff, yields_ofExcept_iff,
        yields_call_iff, yields_pure_iff] at done
      obtain ⟨_, middle, ⟨_, _, ⟨_, rfl⟩, reply, _, ⟨_, rfl⟩, heard⟩, _, _, remaining, _, rfl⟩ :=
        done
      have first : Spends 1 _ middle := (spends_called _ _).keeps
        ((reading_keeps_costs.hear Scope.reads_everything reply).yields heard)
      rw [List.length_cons, Nat.add_comm]
      exact first.trans (inductionHypothesis remaining)

theorem spends_fetch {getter : Getter} {candidacy : Candidacy} {pool : List Target}
    {results : FetchResults} (offered : getter.candidacy? pool = some candidacy)
    (done : Yields context (getter.fetch candidacy) before results after) :
    Spends 1 before after := by
  cases getter with
  | single method =>
      obtain ⟨id, one⟩ := Candidacy.exists_ids_of_ofSingle offered
      have spends := SingleGetter.spends_fetchAll done
      rwa [one] at spends
  | batch method =>
      rw [Getter.fetch, method.fetchAll_eq] at done
      obtain ⟨params, _, remaining⟩ := yields_ofExcept_bind_iff.mp done
      exact spends_of_call (reading_keeps_costs.batch Scope.reads_everything _) remaining
  | table method => exact spends_of_call (fun _ => keeps_pure _) done

theorem spends_find {prerequisite : Prerequisite} {entities : List Handle}
    (done : Yields context prerequisite.find before entities after) : Spends 1 before after := by
  cases prerequisite with
  | list cls domain selector slot =>
      obtain ⟨method, _, executes⟩ := yields_find_list done
      refine spends_of_call (fun response => ?_) executes
      exact reading_keeps_costs.bind (reading_keeps_costs.ofExcept (unfazed_walk _ _ _)) fun items =>
        reading_keeps_costs.loadEntities
          (fun item => reading_keeps_costs.entity Scope.reads_everything _ _ _ item) items
  | search cls query selector slot =>
      obtain ⟨method, _, executes⟩ := yields_find_search done
      simp only [SearchMethod.execute, yields_bind_iff, yields_schema_iff, yields_ofExcept_iff,
        yields_read_iff] at executes
      obtain ⟨_, _, ⟨rfl, rfl⟩, opened, _, ⟨_, rfl⟩, _, _, ⟨rfl, rfl⟩, executes⟩ := executes
      refine spends_of_call (fun response => ?_) (yields_bind_iff.mpr executes)
      split
      · exact reading_keeps_costs.throw rfl
      · exact reading_keeps_costs.searchItems trivial _ _ _

theorem spends_currentUser {method : CurrentUserMethod} {selector : Selector} {user : Handle}
    (done : Yields context (method.load selector) before user after) : Spends 1 before after := by
  refine spends_of_call (fun response => ?_) done
  refine (reading_keeps_costs.entity Scope.reads_everything _ _ _ response).bind fun user? => ?_
  cases user? with
  | none => exact reading_keeps_costs.throw rfl
  | some user => exact keeps_pure user

end Run

end EntityResolver
