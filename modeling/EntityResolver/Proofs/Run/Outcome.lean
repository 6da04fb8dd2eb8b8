import EntityResolver.Run.Round

/-!
What steps of a run come to.

`Yields` says that a step started in a state ends with a result in another state. Its laws take a
step apart into the steps that it is made of, so that later proofs never look into the monad.
-/

set_option autoImplicit false

namespace EntityResolver.Run

variable {α β : Type} {context : RunContext} {before middle after : RunState}

/-- The step ends with a result. -/
def Yields (context : RunContext) (step : Run α) (before : RunState) (result : α)
    (after : RunState) : Prop :=
  step context before = .ok result after

/-- The step ends with some result, and not with an error. -/
def Succeeds (context : RunContext) (step : Run α) (before : RunState) : Prop :=
  ∃ result after, Yields context step before result after

theorem Yields.unique {step : Run α} {first second : α} {left right : RunState}
    (one : Yields context step before first left)
    (other : Yields context step before second right) :
    first = second ∧ left = right := by
  unfold Yields at one other
  rw [one] at other
  cases other
  exact ⟨rfl, rfl⟩

theorem Yields.succeeds {step : Run α} {result : α}
    (done : Yields context step before result after) :
    Succeeds context step before :=
  ⟨result, after, done⟩

@[simp] theorem yields_pure_iff {value result : α} :
    Yields context (pure value) before result after ↔ result = value ∧ after = before := by
  constructor
  · intro done
    cases done
    exact ⟨rfl, rfl⟩
  · rintro ⟨rfl, rfl⟩
    rfl

/-- After a step that ends with a result comes the next one. -/
theorem Yields.bind {step : Run α} {value : α} (done : Yields context step before value middle)
    (next : α → Run β) : (step >>= next) context before = next value context middle := by
  simp only [Yields] at done
  simp [Bind.bind, ReaderT.bind, EStateM.bind, done]

theorem bind_of_error {step : Run α} {error : ResolveError}
    (failed : step context before = .error error middle) (next : α → Run β) :
    (step >>= next) context before = .error error middle := by
  simp [bind, ReaderT.bind, EStateM.bind, failed]

theorem yields_bind_iff {step : Run α} {next : α → Run β} {result : β} :
    Yields context (step >>= next) before result after ↔
      ∃ value middle, Yields context step before value middle ∧
        Yields context (next value) middle result after := by
  cases outcome : step context before with
  | ok value middle =>
      rw [Yields, Yields.bind outcome]
      constructor
      · exact fun done => ⟨value, middle, outcome, done⟩
      · rintro ⟨other, state, first, done⟩
        obtain ⟨rfl, rfl⟩ := Yields.unique outcome first
        exact done
  | error error middle =>
      rw [Yields, bind_of_error outcome]
      constructor
      · nofun
      · rintro ⟨value, state, first, done⟩
        rw [Yields, outcome] at first
        cases first

@[simp] theorem yields_map_iff {step : Run α} {f : α → β} {result : β} :
    Yields context (f <$> step) before result after ↔
      ∃ value, Yields context step before value after ∧ result = f value := by
  rw [← bind_pure_comp, yields_bind_iff]
  constructor
  · rintro ⟨value, middle, first, rest⟩
    obtain ⟨rfl, rfl⟩ := yields_pure_iff.mp rest
    exact ⟨value, first, rfl⟩
  · rintro ⟨value, first, rfl⟩
    exact ⟨value, after, first, yields_pure_iff.mpr ⟨rfl, rfl⟩⟩

@[simp] theorem yields_get_iff {result : RunState} :
    Yields context get before result after ↔ result = before ∧ after = before := by
  constructor
  · intro done
    cases done
    exact ⟨rfl, rfl⟩
  · rintro ⟨rfl, rfl⟩
    rfl

@[simp] theorem yields_modify_iff {change : RunState → RunState} {result : PUnit} :
    Yields context (modify change) before result after ↔ after = change before := by
  constructor
  · intro done
    cases done
    rfl
  · rintro rfl
    rfl

@[simp] theorem yields_read_iff {result : RunContext} :
    Yields context read before result after ↔ result = context ∧ after = before := by
  constructor
  · intro done
    cases done
    exact ⟨rfl, rfl⟩
  · rintro ⟨rfl, rfl⟩
    rfl

@[simp] theorem not_yields_throw {error : ResolveError} {result : α} :
    ¬ Yields context (throw error) before result after := by
  intro done
  cases done

@[simp] theorem yields_ofExcept_iff {outcome : Except ResolveError α} {result : α} :
    Yields context (ofExcept outcome) before result after ↔
      outcome = .ok result ∧ after = before := by
  cases outcome with
  | ok value => simp [ofExcept, eq_comm]
  | error error => simp [ofExcept]

theorem yields_ofExcept_bind_iff {outcome : Except ResolveError α} {next : α → Run β} {result : β} :
    Yields context (ofExcept outcome >>= next) before result after ↔
      ∃ value, outcome = .ok value ∧ Yields context (next value) before result after := by
  simp only [yields_bind_iff, yields_ofExcept_iff]
  constructor
  · rintro ⟨value, _, ⟨found, rfl⟩, done⟩
    exact ⟨value, found, done⟩
  · rintro ⟨value, found, done⟩
    exact ⟨value, before, ⟨found, rfl⟩, done⟩

@[simp] theorem yields_schema_iff {result : Schema} :
    Yields context schema before result after ↔ result = context.catalog.schema ∧
      after = before := by
  simp only [schema, yields_bind_iff, yields_read_iff, yields_pure_iff]
  constructor
  · rintro ⟨_, _, ⟨rfl, rfl⟩, same⟩
    exact same
  · exact fun same => ⟨context, before, ⟨rfl, rfl⟩, same⟩

@[simp] theorem yields_className_iff {cls : ClassId} {result : String} :
    Yields context (className cls) before result after ↔
      result = context.catalog.schema.className cls ∧ after = before := by
  simp only [className, yields_bind_iff, yields_schema_iff, yields_pure_iff]
  constructor
  · rintro ⟨_, _, ⟨rfl, rfl⟩, same⟩
    exact same
  · exact fun same => ⟨_, before, ⟨rfl, rfl⟩, same⟩

def called (state : RunState) (request : Call) : RunState :=
  { state with
    calls := state.calls ++ [request]
    stats := { state.stats with remoteCalls := state.stats.remoteCalls + 1 } }

@[simp] theorem yields_call_iff {path : String} {params : Params} {reply : Reply} :
    Yields context (call path params) before reply after ↔
      reply = context.remote before.calls ⟨path, params⟩ ∧
        after = called before ⟨path, params⟩ := by
  constructor
  · intro done
    cases done
    exact ⟨rfl, rfl⟩
  · rintro ⟨rfl, rfl⟩
    rfl

@[simp] theorem yields_callOrFail_iff {path : String} {params : Params} {response : Json} :
    Yields context (callOrFail path params) before response after ↔
      context.remote before.calls ⟨path, params⟩ = .ok response ∧
        after = called before ⟨path, params⟩ := by
  simp only [callOrFail, yields_bind_iff, yields_call_iff]
  constructor
  · rintro ⟨reply, middle, ⟨rfl, rfl⟩, done⟩
    cases outcome : context.remote before.calls ⟨path, params⟩ with
    | ok body =>
        simp only [outcome, yields_pure_iff] at done
        obtain ⟨rfl, rfl⟩ := done
        exact ⟨rfl, rfl⟩
    | error failure =>
        simp only [outcome] at done
        exact absurd done not_yields_throw
  · rintro ⟨answered, rfl⟩
    exact ⟨.ok response, _, ⟨answered.symm, rfl⟩, yields_pure_iff.mpr ⟨rfl, rfl⟩⟩

theorem succeeds_bind {step : Run α} {next : α → Run β} {value : α}
    (first : Yields context step before value middle)
    (rest : Succeeds context (next value) middle) : Succeeds context (step >>= next) before := by
  obtain ⟨result, after, done⟩ := rest
  exact ⟨result, after, yields_bind_iff.mpr ⟨value, middle, first, done⟩⟩

/-- The step ends with a result as `good` says, or it fails in a state as `bad` says. -/
def Meets (context : RunContext) (step : Run α) (before : RunState) (good : α → RunState → Prop)
    (bad : RunState → Prop) : Prop :=
  match step context before with
  | .ok result after => good result after
  | .error _ after => bad after

theorem meets_iff {step : Run α} {good : α → RunState → Prop} {bad : RunState → Prop} :
    Meets context step before good bad ↔
      (∀ result after, Yields context step before result after → good result after) ∧
        ∀ error after, step context before = .error error after → bad after := by
  unfold Meets Yields
  cases step context before with
  | ok result after => simp
  | error error after => simp

instance {step : Run α} {good : α → RunState → Prop} {bad : RunState → Prop}
    [∀ result after, Decidable (good result after)] [DecidablePred bad] :
    Decidable (Meets context step before good bad) :=
  match outcome : step context before with
  | .ok result after => decidable_of_iff (good result after) (by rw [Meets, outcome])
  | .error _ after => decidable_of_iff (bad after) (by rw [Meets, outcome])

theorem Yields.meets {step : Run α} {result : α} {good : α → RunState → Prop}
    {bad : RunState → Prop} (done : Yields context step before result after)
    (holds : good result after) : Meets context step before good bad := by
  rw [Yields] at done
  rw [Meets, done]
  exact holds

theorem Meets.mono {step : Run α} {good better : α → RunState → Prop} {bad worse : RunState → Prop}
    (met : Meets context step before good bad)
    (results : ∀ result after, good result after → better result after)
    (failures : ∀ after, bad after → worse after) : Meets context step before better worse := by
  rw [meets_iff] at met ⊢
  exact ⟨fun result after done => results result after (met.1 result after done),
    fun error after failed => failures after (met.2 error after failed)⟩

theorem Meets.andYields {step : Run α} {good : α → RunState → Prop} {bad : RunState → Prop}
    (met : Meets context step before good bad) :
    Meets context step before
      (fun result after => good result after ∧ Yields context step before result after) bad := by
  rw [meets_iff] at met ⊢
  exact ⟨fun result after done => ⟨met.1 result after done, done⟩, met.2⟩

theorem Meets.yields {step : Run α} {result : α} {good : α → RunState → Prop}
    {bad : RunState → Prop} (met : Meets context step before good bad)
    (done : Yields context step before result after) : good result after :=
  (meets_iff.mp met).1 result after done

theorem Meets.exists_yields {step : Run α} {good : α → RunState → Prop}
    (met : Meets context step before good fun _ => False) :
    ∃ result after, Yields context step before result after ∧ good result after := by
  cases outcome : step context before with
  | ok result after => exact ⟨result, after, outcome, met.yields outcome⟩
  | error error after => exact ((meets_iff.mp met).2 error after outcome).elim

/-- The step leaves the state behind, with a result or with an error. -/
def Leaves (context : RunContext) (step : Run α) (before after : RunState) : Prop :=
  (∃ result, Yields context step before result after) ∨
    ∃ error, step context before = .error error after

theorem Meets.of_leaves {step : Run α} {holds : RunState → Prop}
    (met : Meets context step before (fun _ => holds) holds)
    (leaves : Leaves context step before after) : holds after := by
  rcases leaves with ⟨result, done⟩ | ⟨error, failed⟩
  · exact met.yields done
  · exact (meets_iff.mp met).2 error after failed

theorem meets_bind_iff {step : Run α} {next : α → Run β} {good : β → RunState → Prop}
    {bad : RunState → Prop} :
    Meets context (step >>= next) before good bad ↔
      Meets context step before
        (fun value middle => Meets context (next value) middle good bad) bad := by
  cases outcome : step context before with
  | ok value middle =>
      rw [Meets, Yields.bind outcome, Meets.eq_def context step, outcome]
      rfl
  | error error middle =>
      rw [Meets, bind_of_error outcome, Meets.eq_def context step, outcome]

end EntityResolver.Run
