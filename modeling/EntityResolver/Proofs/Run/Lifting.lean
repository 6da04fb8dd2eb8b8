import EntityResolver.Proofs.Json.Documents
import EntityResolver.Proofs.Json.Sorted
import EntityResolver.Run.Load

/-!
Values that are lifted into the items of a list.
-/

set_option autoImplicit false

namespace EntityResolver.Run

variable {lifts : List (String × String)} {response other item value : Json} {key : String}

theorem liftInto_cons (source lifted : String) (rest : List (String × String)) (response : Json)
    (members : List (String × Json)) :
    liftInto ((source, lifted) :: rest) response (.object members) =
      liftInto rest response (.object (match response.member? source with
        | some value => Json.setMember lifted value members
        | none => members)) :=
  rfl

theorem member?_liftInto (apart : ∀ lift ∈ lifts, lift.2 ≠ key) (response item : Json) :
    (liftInto lifts response item).member? key = item.member? key := by
  cases item with
  | object members =>
      induction lifts generalizing members with
      | nil => rfl
      | cons lift rest inductionHypothesis =>
          obtain ⟨source, lifted⟩ := lift
          obtain ⟨here, there⟩ := List.forall_mem_cons.mp apart
          rw [liftInto_cons, inductionHypothesis there]
          cases response.member? source with
          | none => rfl
          | some value => exact (Json.get?_setMember ..).trans (if_neg here)
  | _ => rfl

theorem member?_liftInto_cases (found : (liftInto lifts response item).member? key = some value) :
    item.member? key = some value ∨
      ∃ source, (source, key) ∈ lifts ∧ response.member? source = some value := by
  cases item with
  | object members =>
      induction lifts generalizing members with
      | nil => exact .inl found
      | cons lift rest inductionHypothesis =>
          obtain ⟨source, lifted⟩ := lift
          rw [liftInto_cons] at found
          rcases inductionHypothesis _ found with own | ⟨origin, listed, known⟩
          · cases there : response.member? source with
            | none =>
                rw [there] at own
                exact .inl own
            | some copied =>
                rw [there] at own
                replace own := (Json.get?_setMember lifted copied members key).symm.trans own
                split at own
                · rename_i same
                  subst same
                  cases own
                  exact .inr ⟨source, List.mem_cons_self, there⟩
                · exact .inl own
          · exact .inr ⟨origin, List.mem_cons_of_mem _ listed, known⟩
  | _ => exact .inl found

theorem liftInto_congr (same : ∀ lift ∈ lifts, response.member? lift.1 = other.member? lift.1) :
    liftInto lifts response = liftInto lifts other := by
  funext item
  cases item with
  | object members =>
      refine congrArg Json.object (List.foldl_ext _ _ _ fun members lift listed => ?_)
      dsimp only
      rw [same lift listed]
  | _ => rfl

end EntityResolver.Run
