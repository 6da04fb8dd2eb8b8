import EntityResolver.Proofs.Run.Concurrence
import EntityResolver.Proofs.Run.Lifting
import Mathlib.Data.Finset.Option
import Mathlib.Data.Fintype.BigOperators
import Mathlib.Order.Monotone.Basic

/-!
How deep nested lists go.

Whether an item holds a list of its own depends on what it has under the key of the list and under
those that are lifted further down. That is nothing, or a document inside the response that the
first list is read from. So there are finitely many views of items, and a list that goes on below
more lists than there are views goes on for ever.
-/

set_option autoImplicit false

namespace EntityResolver.Run

variable {context : RunContext} {before start : RunState} {α β : Type}

/-- In the state the step fails for lists without end. -/
def Endless (context : RunContext) (step : Run α) (before : RunState) : Prop :=
  ∃ error, Fails context step before error ∧ error.isEndless = true

/-- In no state does the step fail for lists without end. -/
def NotEndless (context : RunContext) (step : Run α) : Prop :=
  ∀ before, ¬ Endless context step before

theorem endless_bind_iff {step : Run α} {next : α → Run β} :
    Endless context (step >>= next) before ↔ Endless context step before ∨
      ∃ value middle, Yields context step before value middle ∧
        Endless context (next value) middle := by
  simp only [Endless, fails_bind_iff]
  constructor
  · rintro ⟨error, failed | ⟨value, middle, done, failed⟩, endless⟩
    · exact .inl ⟨error, failed, endless⟩
    · exact .inr ⟨value, middle, done, error, failed, endless⟩
  · rintro (⟨error, failed, endless⟩ | ⟨value, middle, done, error, failed, endless⟩)
    · exact ⟨error, .inl failed, endless⟩
    · exact ⟨error, .inr ⟨value, middle, done, failed⟩, endless⟩

theorem Concur.endless {step : Run α} {twin : Run β} (concur : Concur context step twin)
    (endless : Endless context step before) (start : RunState) : Endless context twin start := by
  obtain ⟨error, failed, isEndless⟩ := endless
  exact ⟨error, (concur before start error).mp failed, isEndless⟩

/-- The other step does the same where the first does not fail for lists without end. -/
def Deepens (context : RunContext) (step other : Run α) : Prop :=
  ∀ before, ¬ Endless context step before → other context before = step context before

/-- Besides, it fails for lists without end where the first does. -/
def Matches (context : RunContext) (step other : Run α) : Prop :=
  Deepens context step other ∧
    ∀ before, Endless context step before → Endless context other before

theorem Deepens.not_endless {step other : Run α} (deepens : Deepens context step other)
    (ends : ¬ Endless context step before) : ¬ Endless context other before := by
  rintro ⟨error, ⟨after, failed⟩, endless⟩
  exact ends ⟨error, ⟨after, (deepens before ends).symm.trans failed⟩, endless⟩

theorem Deepens.bind {step other : Run α} {next nextToo : α → Run β}
    (steps : Deepens context step other)
    (rest : ∀ value, Deepens context (next value) (nextToo value)) :
    Deepens context (step >>= next) (other >>= nextToo) := by
  intro before ends
  have same := steps before fun endless => ends (endless_bind_iff.mpr (.inl endless))
  cases outcome : step context before with
  | error error failed => rw [bind_of_error outcome, bind_of_error (same.trans outcome)]
  | ok value middle =>
      rw [Yields.bind outcome, Yields.bind (same.trans outcome)]
      exact rest value middle fun endless =>
        ends (endless_bind_iff.mpr (.inr ⟨value, middle, outcome, endless⟩))

theorem Matches.bind {step other : Run α} {next nextToo : α → Run β}
    (steps : Matches context step other)
    (rest : ∀ value, Matches context (next value) (nextToo value)) :
    Matches context (step >>= next) (other >>= nextToo) := by
  refine ⟨steps.1.bind fun value => (rest value).1, fun before endless => ?_⟩
  by_cases now : Endless context step before
  · exact endless_bind_iff.mpr (.inl (steps.2 before now))
  · rcases endless_bind_iff.mp endless with endless | ⟨value, middle, done, endless⟩
    · exact absurd endless now
    · exact endless_bind_iff.mpr
        (.inr ⟨value, middle, (steps.1 before now).trans done, (rest value).2 middle endless⟩)

structure Congruent (relates : ∀ {α : Type}, Run α → Run α → Prop) : Prop where
  refl : ∀ {α : Type} (step : Run α), relates step step
  bind : ∀ {α β : Type} {step other : Run α} {next nextToo : α → Run β}, relates step other →
    (∀ value, relates (next value) (nextToo value)) → relates (step >>= next) (other >>= nextToo)

theorem congruent_deepens : Congruent (Deepens context) :=
  ⟨fun _ _ _ => rfl, Deepens.bind⟩

theorem congruent_matches : Congruent (Matches context) :=
  ⟨fun _ => ⟨fun _ _ => rfl, fun _ endless => endless⟩, Matches.bind⟩

variable {plan : ListPlan} {loadField : LoadField} {response other item : Json}

theorem Congruent.loadItems {relates : ∀ {α : Type}, Run α → Run α → Prop}
    (congruent : Congruent relates) {below belowToo : Json → Run (List Handle)}
    {seen : List String} {items : List Json} (further : ∀ item ∈ items,
      relates (below (liftInto plan.lifts response item))
        (belowToo (liftInto plan.lifts response item))) :
    relates (loadItems plan loadField below response seen items)
      (loadItems plan loadField belowToo response seen items) := by
  induction items generalizing seen with
  | nil => exact congruent.refl _
  | cons item rest inductionHypothesis =>
      have remaining (seen : List String) : relates
          (Run.loadItems plan loadField below response seen rest)
          (Run.loadItems plan loadField belowToo response seen rest) :=
        inductionHypothesis fun other member => further other (List.mem_cons_of_mem _ member)
      refine congruent.bind (congruent.refl _) fun id? => ?_
      cases id? with
      | none => exact remaining seen
      | some id =>
          dsimp only
          split
          · exact remaining seen
          · refine congruent.bind (congruent.refl _) fun values => ?_
            have spawns (values : FieldValues) := congruent.bind
              (congruent.refl (spawn plan.cls id plan.sub values false)) fun entity =>
                congruent.bind (remaining (id :: seen)) fun entities =>
                  congruent.refl (pure (entity :: entities))
            split
            · exact congruent.bind (further item List.mem_cons_self) fun children =>
                congruent.bind (congruent.refl _) spawns
            · exact congruent.bind (congruent.refl (pure values)) spawns

/-- Reading deeper changes nothing where a list comes to an end. -/
theorem deepens_loadList (depth more : Nat) (response : Json) :
    Deepens context (loadList plan loadField depth response)
      (loadList plan loadField (depth + more) response) := by
  induction depth generalizing response with
  | zero =>
      intro before ends
      exact absurd ⟨_, fails_throw_iff.mpr rfl, rfl⟩ ends
  | succ depth inductionHypothesis =>
      rw [Nat.add_right_comm]
      unfold Run.loadList
      split
      · exact congruent_deepens.refl _
      · exact congruent_deepens.bind (congruent_deepens.refl _) fun items =>
          congruent_deepens.loadItems fun item _ => inductionHypothesis _

/-- The keys on which it depends what lists a response holds. -/
def slots (plan : ListPlan) : List String :=
  plan.key :: plan.lifts.map Prod.fst

/-- What a response has under these keys. -/
def view (plan : ListPlan) (response : Json) : Fin (slots plan).length → Option Json :=
  fun index => response.member? (slots plan)[index]

theorem member?_of_view (same : view plan response = view plan other) {slot : String}
    (member : slot ∈ slots plan) : response.member? slot = other.member? slot := by
  obtain ⟨index, bound, rfl⟩ := List.mem_iff_getElem.mp member
  exact congrFun same ⟨index, bound⟩

theorem loadList_of_view (same : view plan response = view plan other) (depth : Nat) :
    loadList plan loadField depth response = loadList plan loadField depth other := by
  have lifted : liftInto plan.lifts response = liftInto plan.lifts other :=
    liftInto_congr fun lift listed =>
      member?_of_view same (List.mem_cons_of_mem _ (List.mem_map_of_mem listed))
  have items (below : Json → Run (List Handle)) (seen : List String) (items : List Json) :
      loadItems plan loadField below response seen items =
        loadItems plan loadField below other seen items := by
    induction items generalizing seen with
    | nil => rfl
    | cons item rest inductionHypothesis =>
        unfold Run.loadItems
        simp only [lifted, inductionHypothesis]
  cases depth with
  | zero => rfl
  | succ depth =>
      unfold Run.loadList
      simp only [member?_of_view same List.mem_cons_self, items]

/-- There is no end where an item has what the response around it has. -/
theorem endless_of_alike {items : List Json} {id : String}
    (listed : response.member? plan.key = some (.array (item :: items)))
    (alike : view plan (liftInto plan.lifts response item) = view plan response)
    (identified : plan.id.load plan.path (liftInto plan.lifts response item) = .ok (some id))
    (recursive : plan.sub.isRecursive plan.field.name = true)
    (loads : ∀ before, Succeeds context
      (loadValues loadField plan.cls (liftInto plan.lifts response item) plan.sub) before)
    (depth : Nat) (before : RunState) :
    Endless context (loadList plan loadField depth response) before := by
  induction depth generalizing before with
  | zero => exact ⟨_, fails_throw_iff.mpr rfl, rfl⟩
  | succ depth inductionHypothesis =>
      have again : (liftInto plan.lifts response item).member? plan.key =
          some (.array (item :: items)) :=
        (member?_of_view alike List.mem_cons_self).trans listed
      have further (start : RunState) : Endless context
          (loadList plan loadField depth (liftInto plan.lifts response item)) start :=
        loadList_of_view alike depth ▸ inductionHypothesis start
      obtain ⟨values, middle, done⟩ := loads before
      unfold Run.loadList
      simp only [listed]
      refine endless_bind_iff.mpr (.inr ⟨item :: items, before, rfl, ?_⟩)
      unfold Run.loadItems
      refine endless_bind_iff.mpr (.inr ⟨some id, before, ?_, ?_⟩)
      · rw [identified]
        rfl
      · simp only [List.contains_nil, Bool.and_false, Bool.false_eq_true, if_false, recursive,
          again, Option.isSome_some, Bool.and_true, if_true]
        refine endless_bind_iff.mpr (.inr ⟨values, middle, done, ?_⟩)
        exact endless_bind_iff.mpr (.inl (further middle))

def Inside (outer response : Json) : Prop :=
  ∀ slot value, response.member? slot = some value → value ∈ outer.documents

theorem inside_self (response : Json) : Inside response response :=
  fun _ value found => (Json.documents_member found).1 (Json.mem_documents value)

theorem Inside.liftInto {outer item : Json} {items : List Json} (inside : Inside outer response)
    (listed : (response.member? plan.key) = some (.array items)) (member : item ∈ items) :
    Inside outer (Run.liftInto plan.lifts response item) := by
  intro slot value found
  rcases member?_liftInto_cases found with own | ⟨source, _, lifted⟩
  · have inItem := (Json.documents_member own).1 (Json.mem_documents value)
    exact Json.documents_subset outer (inside _ _ listed) ((Json.documents_item member).1 inItem)
  · exact inside source value lifted

open Classical in
/-- The views of responses whose values are inside a document. -/
noncomputable def views (plan : ListPlan) (outer : Json) :
    Finset (Fin (slots plan).length → Option Json) :=
  Fintype.piFinset fun _ => Finset.insertNone outer.documents.toFinset

theorem Inside.view_mem {outer : Json} (inside : Inside outer response) :
    view plan response ∈ views plan outer := by
  classical
  refine Fintype.mem_piFinset.mpr fun index => ?_
  cases found : view plan response index with
  | none => exact Finset.none_mem_insertNone
  | some value => exact Finset.some_mem_insertNone.mpr (List.mem_toFinset.mpr (inside _ _ found))

theorem card_views_lt (plan : ListPlan) (outer : Json) :
    (views plan outer).card < plan.depthIn outer := by
  classical
  have fewer : (Finset.insertNone outer.documents.toFinset).card ≤ outer.documents.length + 1 := by
    rw [Finset.card_insertNone]
    exact Nat.succ_le_succ (List.toFinset_card_le _)
  have slotCount : (slots plan).length = plan.lifts.length + 1 := by
    simp [slots]
  refine Nat.lt_succ_of_le ?_
  rw [views, Fintype.card_piFinset_const, slotCount]
  exact Nat.pow_le_pow_left fewer _

/-- When it is read to the depth, the response comes to an end. -/
def EndsAt (context : RunContext) (plan : ListPlan) (loadField : LoadField) (depth : Nat)
    (response : Json) : Prop :=
  NotEndless context (loadList plan loadField depth response)

theorem EndsAt.deeper {depth : Nat} (ends : EndsAt context plan loadField depth response)
    (more : Nat) : EndsAt context plan loadField (depth + more) response :=
  fun before => (deepens_loadList depth more response).not_endless (ends before)

section Uniform

variable (each : ∀ cls response name sub, Uniform context (loadField cls response name sub))

include each

/-- If one level more makes no difference to any response inside the document, then neither do
two. -/
theorem endsAt_of_stable {outer : Json} {depth : Nat}
    (stable : ∀ response, Inside outer response →
      EndsAt context plan loadField (depth + 1) response →
        EndsAt context plan loadField depth response)
    (inside : Inside outer response) (ends : EndsAt context plan loadField (depth + 2) response) :
    EndsAt context plan loadField (depth + 1) response := by
  have same (other : Json) (insideToo : Inside outer other) : Matches context
      (loadList plan loadField depth other) (loadList plan loadField (depth + 1) other) := by
    refine ⟨deepens_loadList depth 1 other, fun before endless => ?_⟩
    by_contra endsHere
    exact stable other insideToo
      (fun start endlessToo => endsHere ((uniform_loadList each _ _).endless endlessToo before)) before
      endless
  have deeper : Matches context (loadList plan loadField (depth + 1) response)
      (loadList plan loadField (depth + 2) response) := by
    unfold Run.loadList
    split
    · exact congruent_matches.refl _
    · rename_i value found
      cases value with
      | array items =>
          exact congruent_matches.loadItems fun item listed => same _ (inside.liftInto found listed)
      | null => exact congruent_matches.refl _
      | _ => exact congruent_matches.refl _
  exact fun before endless => ends before (deeper.2 before endless)

open Classical in
/-- The views of responses inside the document that come to an end when they are read to the
depth. -/
noncomputable def endingViews (context : RunContext) (plan : ListPlan) (loadField : LoadField)
    (outer : Json) (depth : Nat) : Finset (Fin (slots plan).length → Option Json) :=
  (views plan outer).filter fun seen => ∃ response,
    Inside outer response ∧ view plan response = seen ∧ EndsAt context plan loadField depth response

omit each in
theorem mem_endingViews_iff {outer : Json} {depth : Nat} (inside : Inside outer response) :
    view plan response ∈ endingViews context plan loadField outer depth ↔
      EndsAt context plan loadField depth response := by
  classical
  rw [endingViews, Finset.mem_filter]
  constructor
  · rintro ⟨_, other, _, same, ends⟩ before
    rw [← loadList_of_view same]
    exact ends before
  · exact fun ends => ⟨inside.view_mem, response, inside, rfl, ends⟩

omit each in
theorem monotone_endingViews (outer : Json) :
    Monotone (endingViews context plan loadField outer) := by
  classical
  refine monotone_nat_of_le_succ fun depth => Finset.monotone_filter_right _ fun seen => ?_
  rintro _ ⟨response, inside, same, ends⟩
  exact ⟨response, inside, same, ends.deeper 1⟩

/-- Once one level more makes no difference, no level does. -/
theorem endingViews_stable (outer : Json) {depth : Nat}
    (same : endingViews context plan loadField outer (depth + 1) =
      endingViews context plan loadField outer depth) :
    endingViews context plan loadField outer (depth + 2) =
      endingViews context plan loadField outer (depth + 1) := by
  classical
  refine (monotone_endingViews outer (Nat.le_succ _)).antisymm' fun seen member => ?_
  obtain ⟨_, response, inside, rfl, ends⟩ := Finset.mem_filter.mp member
  refine (mem_endingViews_iff inside).mpr (endsAt_of_stable each (fun other insideToo ends => ?_)
    inside ends)
  exact (mem_endingViews_iff insideToo).mp (same ▸ (mem_endingViews_iff insideToo).mpr ends)

/-- What comes to an end at any depth comes to an end at that to which lists are read. -/
theorem endsAt_depthIn {depth : Nat} (ends : EndsAt context plan loadField depth response) :
    EndsAt context plan loadField (plan.depthIn response) response := by
  classical
  let ending := endingViews context plan loadField response
  have grows : Monotone fun depth => (ending depth).card :=
    fun _ _ less => Finset.card_le_card (monotone_endingViews response less)
  have bounded (depth : Nat) : (ending depth).card ≤ (views plan response).card :=
    Finset.card_le_card (Finset.filter_subset _ _)
  have unchanged {first second : Nat} (less : first ≤ second)
      (same : (ending first).card = (ending second).card) : ending second = ending first :=
    (Finset.eq_of_subset_of_card_le (monotone_endingViews response less) same.ge).symm
  have final {depth : Nat} (enough : (views plan response).card ≤ depth) :=
    Nat.stabilises_of_monotone grows bounded (fun depth same =>
      congrArg Finset.card
        (endingViews_stable each response (unchanged (Nat.le_succ depth) same)).symm) enough
  have limit := (card_views_lt plan response).le
  have last : ending (plan.depthIn response + depth) = ending (plan.depthIn response) :=
    unchanged (Nat.le_add_right _ _)
      ((final limit).trans (final (limit.trans (Nat.le_add_right _ _))).symm)
  have inside := inside_self response
  have deeper := ends.deeper (plan.depthIn response)
  rw [Nat.add_comm] at deeper
  have member : view plan response ∈ ending (plan.depthIn response + depth) :=
    (mem_endingViews_iff inside).mpr deeper
  exact (mem_endingViews_iff inside).mp (last ▸ member :)

/-- The depth to which lists are read stands for any depth: what comes to an end at some depth is
the same there, and what fails there for lists without end does so at all depths. -/
theorem loadList_depthIn {depth : Nat}
    (ends : ¬ Endless context (loadList plan loadField depth response) before) :
    loadList plan loadField (plan.depthIn response) response context before =
      loadList plan loadField depth response context before := by
  have everywhere : EndsAt context plan loadField depth response := fun start endless =>
    ends ((uniform_loadList each _ _).endless endless before)
  have deeper := deepens_loadList depth (plan.depthIn response) response before ends
  rw [Nat.add_comm] at deeper
  exact (deepens_loadList _ _ _ before (endsAt_depthIn each everywhere before)).symm.trans deeper

end Uniform

end EntityResolver.Run
