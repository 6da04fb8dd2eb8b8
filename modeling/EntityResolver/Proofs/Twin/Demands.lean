import EntityResolver.Proofs.Twin.Rounds
import EntityResolver.Session

/-!
Whole runs side by side, from what they are begun for to what is taken from their ends.
-/

set_option autoImplicit false

namespace EntityResolver.Run.Pairing

variable {context : RunContext} {other : Lang} {pairing : Pairing context other}
variable {before : RunState × RunState} {α β : Type}

/-- What the demand begins is admitted, and nothing is known beforehand. -/
def AdmitsDemand (pairing : Pairing context other) : Demand → Prop
  | .entity cls _ selector values _ => values = [] ∧ pairing.admits cls selector
  | .list cls _ selector => pairing.admits cls selector
  | .search cls query selector => pairing.AdmitsBegun (.search cls query selector 0)
  | .currentUser method selector =>
      context.catalog.currentUser = some method ∧ pairing.admits method.cls selector

theorem Joins.permits {step stepToo : Run α} {good : α → α → RunState × RunState → Prop}
    {error : ResolveError} {ended : RunState} (joins : pairing.Joins before step stepToo good)
    (failed : step context before.1 = .error error ended) : pairing.permits error := by
  unfold Joins at joins
  rw [failed] at joins
  split at joins
  · rename_i done _
    cases done
  · rename_i same _
    cases same
    exact joins.2.1
  · exact joins.elim

theorem Joins.of_leaves {step stepToo : Run α} {good : α → α → RunState × RunState → Prop}
    {ended : RunState} (joins : pairing.Joins before step stepToo good)
    (leaves : Leaves context step before.1 ended) :
    ∃ endedToo, pairing.Reaches before (ended, endedToo) := by
  unfold Joins at joins
  rcases leaves with ⟨result, done⟩ | ⟨error, failed⟩
  · rw [Yields] at done
    rw [done] at joins
    split at joins
    · rename_i same _
      cases same
      exact ⟨_, joins.1⟩
    · rename_i other _
      cases other
    · exact joins.elim
  · rw [failed] at joins
    split at joins
    · rename_i other _
      cases other
    · rename_i same _
      cases same
      exact ⟨_, joins.2.2⟩
    · exact joins.elim

theorem paired_start (pairing : Pairing context other) (earlier : List Call) :
    pairing.Paired ({ calls := earlier }, { calls := earlier }) where
  alike := ⟨#[], [], [], rfl⟩
  arena index := by
    rw [Array.getElem?_eq_none (Nat.zero_le index)]
    exact .none
  cache := .nil
  fine _ member := by cases member
  classed _ _ member := by cases member
  awaits _ member := by cases member
  recorded := by
    have sound : pairing.Sound #[] := fun index record found => by
      rw [Array.getElem?_eq_none (Nat.zero_le index)] at found
      cases found
    have begun : Recorded pairing.Sound ({ calls := earlier } : RunState).events
        { calls := earlier } := .start rfl sound
    exact begun

theorem joins_newSlot (valid : pairing.Paired before) :
    pairing.Joins before newSlot newSlot fun one two _ => one = two := by
  obtain ⟨state, twin⟩ := before
  obtain ⟨arena, cache, events, rfl⟩ := valid.exists_eq
  exact joins_of_yields (yields_newSlot_iff.mpr ⟨rfl, rfl⟩) (yields_newSlot_iff.mpr ⟨rfl, rfl⟩)
    (valid.framed state.calls state.stats (state.outputs.push []) state.origins) rfl

theorem joins_want (prerequisite : Nat → Prerequisite)
    (admitted : ∀ slot, pairing.AdmitsBegun (prerequisite slot)) (valid : pairing.Paired before) :
    pairing.Joins before
      (do
        let slot ← newSlot
        modify fun state =>
          { state with prerequisites := state.prerequisites ++ [prerequisite slot] }
        return slot)
      (do
        let slot ← newSlot
        modify fun state =>
          { state with prerequisites := state.prerequisites ++ [prerequisite slot] }
        return slot)
      fun one two _ => one = two := by
  apply (joins_newSlot valid).bind
  rintro slot _ slotted first rfl
  have wanted : pairing.Joins slotted
      (modify fun state =>
        { state with prerequisites := state.prerequisites ++ [prerequisite slot] })
      (modify fun state =>
        { state with prerequisites := state.prerequisites ++ [prerequisite slot] })
      fun _ _ _ => True := by
    obtain ⟨state, twin⟩ := slotted
    obtain ⟨arena, cache, events, rfl⟩ := first.valid.exists_eq
    apply joins_change
    apply first.valid.awaiting (state.prerequisites ++ [prerequisite slot])
    intro waiting member
    rcases List.mem_append.mp member with old | new
    · exact first.valid.awaits waiting old
    · exact List.mem_singleton.mp new ▸ admitted slot
  apply wanted.bind
  exact fun _ _ after second _ => joins_pure second.valid rfl

theorem Joins.discard {step : Run α} {good : α → α → RunState × RunState → Prop}
    (joins : pairing.Joins before step step good) :
    pairing.Joins before (do let _ ← step) (do let _ ← step) fun _ _ _ => True :=
  joins.bind fun _ _ _ reached _ => joins_pure reached.valid trivial

theorem joins_place {demand : Demand} (admitted : pairing.AdmitsDemand demand)
    (valid : pairing.Paired before) :
    pairing.Joins before demand.place demand.place fun _ _ _ => True := by
  cases demand with
  | entity cls id selector values isWeak =>
      obtain ⟨rfl, admits⟩ := admitted
      exact (joins_spawn valid admits .nil).discard
  | list cls domain selector =>
      exact (joins_want (.list cls domain selector) (fun _ => admitted) valid).discard
  | search cls query selector =>
      exact (joins_want (.search cls query selector) (fun _ => admitted) valid).discard
  | currentUser method selector =>
      exact (finds_currentUser_load admitted.1 admitted.2 valid).discard

theorem joins_placeAll {demands : List Demand}
    (admitted : ∀ demand ∈ demands, pairing.AdmitsDemand demand) (valid : pairing.Paired before) :
    pairing.Joins before (Demand.placeAll demands) (Demand.placeAll demands) fun _ _ _ => True := by
  induction demands generalizing before with
  | nil => exact joins_pure valid trivial
  | cons demand rest inductionHypothesis =>
      apply (joins_place (admitted demand List.mem_cons_self) valid).bind
      intro _ _ placed first _
      exact inductionHypothesis (fun demand member => admitted demand (List.mem_cons_of_mem _ member))
        first.valid

theorem joins_stepsWithin (limit : Nat) {want : Run α} {finish : α → Run β}
    {wanted : α → α → RunState × RunState → Prop} {good : β → β → RunState × RunState → Prop}
    (begins : pairing.Joins before want want wanted)
    (keeps : ∀ {before after one two}, pairing.Reaches before after → wanted one two before →
      wanted one two after)
    (ends : ∀ {after} one two, pairing.Paired after → wanted one two after →
      pairing.Joins after (finish one) (finish two) good) :
    pairing.Joins before (Session.stepsWithin limit want finish)
      (Session.stepsWithin limit want finish) good := by
  unfold Session.stepsWithin
  apply begins.bind
  intro one two begun first found
  apply (joins_executeWithin limit first.valid).bind
  rintro _ _ after second -
  exact ends one two second.valid (keeps second found)

end EntityResolver.Run.Pairing
