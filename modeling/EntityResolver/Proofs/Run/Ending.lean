import EntityResolver.Proofs.Run.Absence
import EntityResolver.Proofs.Run.Descent
import EntityResolver.Proofs.Run.Keeping
import EntityResolver.Proofs.Selector.Height
import Mathlib.Data.Finset.Card
import Mathlib.Logic.Relation

/-!
Lists that come to an end.

The value that an item has under the key of a list is a part of the list itself, unless it was
lifted there. So lists get smaller on the way down if the values that are lifted to the key do not
come from keys that are lifted in a circle. Without recursion there is no way down at all.
-/

set_option autoImplicit false

namespace EntityResolver

def Lifts (lifts : List (String × String)) (source lifted : String) : Prop :=
  (source, lifted) ∈ lifts

/-- Nothing that is lifted to the key, be it in several steps, is lifted in a circle. -/
def Unfed (lifts : List (String × String)) (key : String) : Prop :=
  ∀ source, Relation.ReflTransGen (Lifts lifts) source key →
    ¬ Relation.TransGen (Lifts lifts) source source

/-- If the picker reads a list, nothing is lifted in a circle to its key. -/
def Picker.Unfed : Picker → Prop
  | .nested .list key _ _ _ lifts _ => EntityResolver.Unfed lifts key
  | _ => True

/-- The pickers that a demand brings along, and all inside them. -/
def Demand.pickers : Demand → List Picker
  | .currentUser method _ => method.pickers.fields.within
  | .entity _ _ _ _ _ | .list _ _ _ | .search _ _ _ => []

namespace Run

section Lifting

variable {lifts : List (String × String)} {source lifted key : String}

open Classical in
/-- To how many keys the values under a key are lifted, in one step or several. -/
noncomputable def leeway (lifts : List (String × String)) (source : String) : Nat :=
  ((lifts.map Prod.snd).toFinset.filter fun lifted =>
    Relation.TransGen (Lifts lifts) source lifted).card

theorem leeway_le (lifts : List (String × String)) (source : String) :
    leeway lifts source ≤ lifts.length := by
  classical
  calc leeway lifts source ≤ (lifts.map Prod.snd).toFinset.card := Finset.card_filter_le _ _
    _ ≤ (lifts.map Prod.snd).length := List.toFinset_card_le _
    _ = lifts.length := List.length_map _

theorem leeway_lt (lifting : Lifts lifts source lifted)
    (acyclic : ¬ Relation.TransGen (Lifts lifts) lifted lifted) :
    leeway lifts lifted < leeway lifts source := by
  classical
  refine Finset.card_lt_card ((Finset.ssubset_iff_of_subset fun key member => ?_).mpr
    ⟨lifted, ?_, fun member => acyclic (Finset.mem_filter.mp member).2⟩)
  · obtain ⟨target, reached⟩ := Finset.mem_filter.mp member
    exact Finset.mem_filter.mpr ⟨target, .head lifting reached⟩
  · exact Finset.mem_filter.mpr
      ⟨List.mem_toFinset.mpr (List.mem_map_of_mem lifting), .single lifting⟩

end Lifting

variable {context : RunContext} {plan : ListPlan} {loadField : LoadField} {response item : Json}

/-- The sizes of the values that count for a list are bounded. Of values of one size, those that can
be lifted further count more. -/
def Bounded (plan : ListPlan) (bound : Nat) (response : Json) : Prop :=
  ∀ slot value, Relation.ReflTransGen (Lifts plan.lifts) slot plan.key →
    response.member? slot = some value →
      value.documents.length * (plan.lifts.length + 1) + leeway plan.lifts slot < bound

theorem Bounded.liftInto {bound : Nat} {items : List Json} (unfed : Unfed plan.lifts plan.key)
    (bounded : Bounded plan (bound + 1) response)
    (listed : response.member? plan.key = some (.array items)) (member : item ∈ items) :
    Bounded plan bound (Run.liftInto plan.lifts response item) := by
  intro slot value feeds found
  rcases member?_liftInto_cases found with own | ⟨source, lifting, lifted⟩
  · have smaller : value.documents.length + 1 ≤ (Json.array items).documents.length :=
      (Json.documents_member own).2.trans (Json.documents_item member).2 |> Nat.succ_le_of_lt
    have list := bounded plan.key _ .refl listed
    have most := leeway_le plan.lifts slot
    have scaled := Nat.mul_le_mul_right (plan.lifts.length + 1) smaller
    rw [Nat.add_mul, Nat.one_mul] at scaled
    omega
  · have further := bounded source value (.head lifting feeds) lifted
    have fewer := leeway_lt lifting (unfed slot feeds)
    omega

theorem notEndless_of_succeeds {α : Type} {step : Run α}
    (succeeds : ∀ before, Succeeds context step before) : NotEndless context step := by
  rintro before ⟨error, failed, _⟩
  exact not_fails_of_succeeds (succeeds before) failed

theorem closedUnderSteps_notEndless {scope : Scope}
    (covers : ∀ {catalog}, scope.covers catalog ↔ catalog = context.catalog) :
    ClosedUnderSteps scope (NotEndless context) where
  pure value := notEndless_of_succeeds fun before => ⟨value, before, rfl⟩
  bind first rest before endless := by
    rcases endless_bind_iff.mp endless with endless | ⟨value, middle, _, endless⟩
    · exact first before endless
    · exact rest value middle endless
  throw plain before := by
    rintro ⟨error, failed, endless⟩
    rw [fails_throw_iff] at failed
    subst failed
    cases (ResolveError.isEndless_of_isPlain plain).symm.trans endless
  read next := next context (covers.mpr rfl)
  spawn _ _ _ _ := notEndless_of_succeeds fun _ => succeeds_spawn _ _ _ _ _ _
  alloc _ _ _ := notEndless_of_succeeds fun _ => ⟨_, _, yields_alloc_iff.mpr ⟨rfl, rfl⟩⟩

/-- Lists whose values are not lifted in a circle come to an end, and so do lists that are not read
again below their items. -/
def endingScope (context : RunContext) : Scope where
  admits picker selector :=
    (∀ other ∈ picker.within, other.Unfed) ∨ selector.Distinct ∧ selector.RecursionFree
  covers catalog := catalog = context.catalog
  inside := by
    rintro picker selector name sub other (unfed | ⟨distinct, free⟩) selected found
    · exact .inl fun inner member => unfed inner (picker.within_inside_subset found member)
    · exact .inr ⟨distinct.of_mem_resolved selected, (free.of_mem_resolved distinct selected).1⟩

theorem endsAt_of_bounded (unfed : Unfed plan.lifts plan.key)
    (each : ∀ cls response name sub, (name, sub) ∈ plan.sub.resolved →
      NotEndless context (loadField cls response name sub))
    {bound : Nat} (bounded : Bounded plan bound response) :
    EndsAt context plan loadField (bound + 1) response := by
  have closed : ClosedUnderSteps (endingScope context) (NotEndless context) :=
    closedUnderSteps_notEndless Iff.rfl
  induction bound generalizing response with
  | zero =>
      cases found : response.member? plan.key with
      | none =>
          unfold EndsAt Run.loadList
          simp only [found]
          exact closed.pure []
      | some value => exact absurd (bounded _ _ .refl found) (Nat.not_lt_zero _)
  | succ bound inductionHypothesis =>
      unfold EndsAt Run.loadList
      split
      · exact closed.pure []
      · rename_i value found
        cases value with
        | array items =>
            exact closed.loadItems each fun item member _ =>
              inductionHypothesis (bounded.liftInto unfed found member)
        | null => exact closed.pure []
        | _ => exact closed.throw rfl

theorem exists_bounded (plan : ListPlan) (response : Json) :
    ∃ bound, Bounded plan bound response := by
  refine ⟨response.documents.length * (plan.lifts.length + 1) + plan.lifts.length + 1, ?_⟩
  intro slot value _ found
  have smaller := Nat.mul_le_mul_right (plan.lifts.length + 1) (Json.documents_member found).2.le
  have most := leeway_le plan.lifts slot
  omega

/-- A list that is lifted into its own items has no end, however deep it is read. -/
theorem endless_of_lifted {members : List (String × Json)} {items : List Json} {id : String}
    (lifted : plan.lifts = [(plan.key, plan.key)])
    (listed : response.member? plan.key = some (.array (.object members :: items)))
    (identified : plan.id.load plan.path (liftInto plan.lifts response (.object members)) =
      .ok (some id))
    (recursive : plan.sub.isRecursive plan.field.name = true)
    (loads : ∀ before, Succeeds context
      (loadValues loadField plan.cls (liftInto plan.lifts response (.object members)) plan.sub)
      before)
    (depth : Nat) (before : RunState) :
    Endless context (loadList plan loadField depth response) before := by
  refine endless_of_alike listed (funext fun index => ?_) identified recursive loads depth before
  have only : ∀ slot ∈ slots plan, slot = plan.key := by simp [slots, lifted]
  have slot : (slots plan)[index] = plan.key := only _ (List.getElem_mem index.isLt)
  rw [view, view, slot, lifted, liftInto_cons, listed]
  exact (Json.get?_setMember ..).trans (if_pos rfl)

theorem closedUnderBeginning_notEndless :
    ClosedUnderBeginning (endingScope context) (NotEndless context) where
  toClosedUnderSteps := closedUnderSteps_notEndless Iff.rfl
  list {plan fields _} admitted each response := by
    rcases admitted with unfed | ⟨_, free⟩
    · obtain ⟨bound, bounded⟩ := exists_bounded plan response
      exact endsAt_depthIn (uniform_loadField plan.path fields)
        (endsAt_of_bounded (unfed _ (Picker.mem_within _)) each bounded)
    · have closed : ClosedUnderSteps (endingScope context) (NotEndless context) :=
        closedUnderSteps_notEndless Iff.rfl
      unfold ListPlan.depthIn Run.loadList
      split
      · exact closed.pure []
      · exact closed.bind (closed.ofExcept (unfazed_itemsOf _ _ _)) fun items =>
          closed.loadItems each fun _ _ recursive => by
            rw [free.isRecursive_eq_false] at recursive
            cases recursive
  call _ _ := notEndless_of_succeeds fun _ => ⟨_, _, yields_call_iff.mpr ⟨rfl, rfl⟩⟩
  get := notEndless_of_succeeds fun before => ⟨before, before, rfl⟩
  root _ _ _ _ _ := notEndless_of_succeeds fun _ => succeeds_spawn _ _ _ _ _ _
  arrange _ _ := notEndless_of_succeeds fun _ => ⟨⟨⟩, _, rfl⟩

variable {demands : List Demand} {earlier : List Call} {fits : Target → Prop}
variable {before after : RunState} {prerequisite : Prerequisite}

theorem selector_of_place {demand : Demand} (done : Yields context demand.place before () after)
    (member : prerequisite ∈ after.prerequisites) :
    prerequisite ∈ before.prerequisites ∨ prerequisite.selector = demand.selector := by
  cases demand with
  | entity cls id selector values isWeak =>
      obtain ⟨_, _, spawned, done⟩ := yields_bind_iff.mp done
      obtain ⟨_, rfl⟩ := yields_pure_iff.mp done
      obtain ⟨_, _, _, _, _, rfl⟩ := spawn_changes spawned
      exact .inl member
  | list cls domain selector =>
      simp only [Demand.place, wantList, yields_bind_iff, yields_newSlot_iff, yields_modify_iff,
        yields_pure_iff] at done
      obtain ⟨_, _, ⟨_, _, ⟨rfl, rfl⟩, _, _, rfl, rfl, rfl⟩, _, rfl⟩ := done
      exact (List.mem_append.mp member).imp id fun new => by cases List.mem_singleton.mp new; rfl
  | search cls query selector =>
      simp only [Demand.place, wantSearch, yields_bind_iff, yields_newSlot_iff, yields_modify_iff,
        yields_pure_iff] at done
      obtain ⟨_, _, ⟨_, _, ⟨rfl, rfl⟩, _, _, rfl, rfl, rfl⟩, _, rfl⟩ := done
      exact (List.mem_append.mp member).imp id fun new => by cases List.mem_singleton.mp new; rfl
  | currentUser method selector =>
      obtain ⟨_, _, loaded, done⟩ := yields_bind_iff.mp done
      obtain ⟨_, rfl⟩ := yields_pure_iff.mp done
      have kept := (calling_keeps_prerequisites.currentUser Scope.reads_everything).yields loaded
      exact .inl (kept ▸ member)

theorem exists_demand_of_placeAll (done : Yields context (Demand.placeAll demands) before () after)
    (member : prerequisite ∈ after.prerequisites) :
    prerequisite ∈ before.prerequisites ∨
      ∃ demand ∈ demands, prerequisite.selector = demand.selector := by
  induction demands generalizing before with
  | nil =>
      obtain ⟨_, rfl⟩ := yields_pure_iff.mp done
      exact .inl member
  | cons demand rest inductionHypothesis =>
      obtain ⟨_, middle, first, remaining⟩ := yields_bind_iff.mp done
      rcases inductionHypothesis remaining with placed | ⟨other, inRest, same⟩
      · exact (selector_of_place first placed).imp_right fun same =>
          ⟨demand, List.mem_cons_self, same⟩
      · exact .inr ⟨other, List.mem_cons_of_mem _ inRest, same⟩

structure BeginsIn (scope : Scope) (context : RunContext) (demands : List Demand) : Prop where
  places : ∀ demand ∈ demands, scope.Places demand
  finds : ∀ {earlier placed}, Yields context (Demand.placeAll demands) { calls := earlier } () placed →
    ∀ prerequisite ∈ placed.prerequisites, scope.Finds context.catalog prerequisite

theorem not_endless_of_begun (begins : BeginsIn (endingScope context) context demands) :
    ¬ Endless context (do Demand.placeAll demands; prepare) { calls := earlier } := by
  intro endless
  have closed : ClosedUnderBeginning (endingScope context) (NotEndless context) :=
    closedUnderBeginning_notEndless
  rcases endless_bind_iff.mp endless with endless | ⟨_, placed, done, endless⟩
  · exact closed.placeAll begins.places _ endless
  · obtain ⟨error, failed, isEndless⟩ := endless
    have finds := closed.satisfyAll fun prerequisite member catalog covered =>
      (covered : catalog = context.catalog) ▸ begins.finds done prerequisite member
    exact finds _ ⟨error, fails_prepare_iff.mp failed, isEndless⟩

theorem not_endless_of_round (reads : ∀ {cls pool others getter candidacy},
    before.pools = (cls, pool) :: others →
    bestCandidacy? pool (context.catalog.gettersOf cls) = some (getter, candidacy) →
      (endingScope context).Reads getter.pickers candidacy.selector) :
    ¬ Endless context round before := by
  rintro ⟨error, failed, isEndless⟩
  cases roundFailure_of_fails failed with
  | unserved _ _ raised =>
      cases raised
      cases isEndless
  | unfetched first best failed =>
      exact closedUnderBeginning_notEndless.fetch (reads first best) _ ⟨error, failed, isEndless⟩
  | unsettled _ _ _ failed =>
      obtain ⟨_, _, _, _, unsettled⟩ := unsettled_of_settleChosen failed
      cases unsettled with
      | lacks _ _ raised =>
          cases raised
          cases isEndless
      | misses _ misses =>
          cases misses.2
          cases isEndless

theorem not_endless_of_run (begins : BeginsIn (endingScope context) context demands)
    (persists : Persists context fits)
    (starts : ∀ {ready},
      Yields context (do Demand.placeAll demands; prepare) { calls := earlier } () ready →
        Waits fits ready)
    (reads : ∀ {cls pool getter candidacy}, (∀ target ∈ pool, fits target) →
      getter ∈ context.catalog.gettersOf cls → getter.candidacy? pool = some candidacy →
        (endingScope context).Reads getter.pickers candidacy.selector) (limit : Nat) :
    ¬ Endless context (Demand.runWithin limit demands) { calls := earlier } := by
  intro endless
  rw [runWithin_eq] at endless
  rcases endless_bind_iff.mp endless with endless | ⟨_, ready, begun, endless⟩
  · exact not_endless_of_begun begins endless
  · obtain ⟨error, failed, isEndless⟩ := endless
    rcases fails_bind_iff.mp failed with failed | ⟨isDone, _, _, failed⟩
    · obtain ⟨state, passes, failed⟩ := fails_of_rounds failed
      have waits := passes.waits persists (starts begun)
      refine not_endless_of_round (fun first best => ?_) ⟨error, failed, isEndless⟩
      obtain ⟨offers, offered⟩ := mem_of_bestCandidacy best
      exact reads (fun target member => waits.fits target (mem_pooled_iff.mpr
        ⟨_, _, first ▸ List.mem_cons_self, member⟩)) offers offered
    · cases isDone with
      | true => exact absurd failed (not_fails_of_succeeds ⟨_, _, rfl⟩)
      | false =>
          cases fails_throw_iff.mp failed
          cases isEndless

theorem reads_of_recursionFree {fields : FieldPickers} {selector : Selector}
    (distinct : selector.Distinct) (free : selector.RecursionFree) :
    (endingScope context).Reads fields selector :=
  fun _ _ selected _ _ =>
    .inr ⟨distinct.of_mem_resolved selected, (free.of_mem_resolved distinct selected).1⟩

theorem beginsIn_of_recursionFree (selectors : ∀ demand ∈ demands,
    demand.selector.Distinct ∧ demand.selector.RecursionFree) :
    BeginsIn (endingScope context) context demands where
  places demand member := by
    obtain ⟨distinct, free⟩ := selectors demand member
    cases demand with
    | currentUser method selector => exact reads_of_recursionFree distinct free
    | _ => trivial
  finds placed prerequisite waits := by
    obtain ⟨demand, member, same⟩ :=
      (exists_demand_of_placeAll placed waits).resolve_left List.not_mem_nil
    obtain ⟨distinct, free⟩ := same ▸ selectors demand member
    cases prerequisite with
    | list _ _ _ _ => exact fun _ _ => reads_of_recursionFree distinct free
    | search _ _ _ _ => exact fun _ _ => .inr ⟨distinct, free⟩

theorem reads_of_unfed {fields : FieldPickers} {selector : Selector}
    (unfed : ∀ picker ∈ fields.within, picker.Unfed) :
      (endingScope context).Reads fields selector :=
  fun _ _ _ _ found => .inl fun other inside =>
    unfed other (FieldPickers.within_subset found inside)

theorem beginsIn_of_unfed
    (unfed : ∀ picker ∈ context.catalog.pickers ++ demands.flatMap Demand.pickers, picker.Unfed) :
    BeginsIn (endingScope context) context demands := by
  obtain ⟨methods, brought⟩ := List.forall_mem_append.mp unfed
  constructor
  · intro demand member
    cases demand with
    | currentUser method selector =>
        exact reads_of_unfed fun picker inside =>
          brought picker (List.mem_flatMap.mpr ⟨_, member, inside⟩)
    | _ => trivial
  · intro _ placed _ prerequisite _
    cases prerequisite with
    | list _ _ _ _ =>
        exact fun method offered => reads_of_unfed fun picker inside => methods picker
          (context.catalog.list_pickers_subset (List.mem_of_find?_eq_some offered) inside)
    | search _ _ _ _ =>
        exact fun method offered => .inl fun picker inside => methods picker
          (context.catalog.search_pickers_subset (List.mem_of_find?_eq_some offered) inside)

end Run

end EntityResolver
