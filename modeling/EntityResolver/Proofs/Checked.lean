import Mathlib.Data.List.Forall2

/-!
Results of steps that can fail, taken apart.
-/

set_option autoImplicit false

namespace EntityResolver

variable {ε ζ α β : Type}

theorem ok_bind (value : α) (next : α → Except ε β) :
    (Except.ok value >>= next) = next value := rfl

theorem bind_eq_ok_iff {outcome : Except ε α} {next : α → Except ε β} {result : β} :
    (outcome >>= next) = .ok result ↔ ∃ value, outcome = .ok value ∧ next value = .ok result := by
  cases outcome <;> simp [bind, Except.bind]

theorem bind_eq_error_iff {outcome : Except ε α} {next : α → Except ε β} {error : ε} :
    (outcome >>= next) = .error error ↔
      outcome = .error error ∨ ∃ value, outcome = .ok value ∧ next value = .error error := by
  cases outcome <;> simp [bind, Except.bind]

theorem map_eq_ok_iff {outcome : Except ε α} {next : α → β} {result : β} :
    outcome.map next = .ok result ↔ ∃ value, outcome = .ok value ∧ next value = result := by
  cases outcome <;> simp [Except.map]

theorem map_eq_error_iff {outcome : Except ε α} {next : α → β} {error : ε} :
    outcome.map next = .error error ↔ outcome = .error error := by
  cases outcome <;> simp [Except.map]

theorem mapError_eq_ok_iff {outcome : Except ε α} {rename : ε → ζ} {result : α} :
    outcome.mapError rename = .ok result ↔ outcome = .ok result := by
  cases outcome with
  | ok value => exact ⟨fun same => by cases same; rfl, fun same => by cases same; rfl⟩
  | error raised => exact ⟨nofun, nofun⟩

/-- A row of steps succeeds if every one does. -/
theorem mapM_eq_ok_iff {step : α → Except ε β} {inputs : List α}
    {outputs : List β} :
    inputs.mapM step = .ok outputs ↔
      List.Forall₂ (fun input output => step input = .ok output) inputs outputs := by
  induction inputs generalizing outputs with
  | nil =>
      rw [List.mapM_nil, List.forall₂_nil_left_iff]
      exact ⟨fun same => (Except.ok.inj same).symm, fun same => same ▸ rfl⟩
  | cons input rest inductionHypothesis =>
      simp only [List.mapM_cons, bind_eq_ok_iff, List.forall₂_cons_left_iff]
      constructor
      · rintro ⟨output, first, others, remaining, same⟩
        cases same
        exact ⟨output, others, first, inductionHypothesis.mp remaining, rfl⟩
      · rintro ⟨output, others, first, remaining, rfl⟩
        exact ⟨output, first, others, inductionHypothesis.mpr remaining, rfl⟩

theorem exists_of_mapM_eq_error {step : α → Except ε β} {inputs : List α} {error : ε}
    (failed : inputs.mapM step = .error error) : ∃ input ∈ inputs, step input = .error error := by
  induction inputs with
  | nil => cases failed
  | cons input rest inductionHypothesis =>
      rw [List.mapM_cons] at failed
      rcases bind_eq_error_iff.mp failed with here | ⟨_, _, continued⟩
      · exact ⟨input, List.mem_cons_self, here⟩
      · rcases bind_eq_error_iff.mp continued with there | ⟨_, _, done⟩
        · obtain ⟨other, member, failedThere⟩ := inductionHypothesis there
          exact ⟨other, List.mem_cons_of_mem input member, failedThere⟩
        · cases done

end EntityResolver
