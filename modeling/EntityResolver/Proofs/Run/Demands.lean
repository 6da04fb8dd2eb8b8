import EntityResolver.Proofs.Run.Fetching
import EntityResolver.Proofs.Run.Resolving

/-!
The beginning of a run: what it is wanted for, up to its first round.

A discipline of spawning holds up to the first round if it admits every selector that is wanted.
-/

set_option autoImplicit false

namespace EntityResolver

/-- What a run is begun for. -/
inductive Demand where
  | entity (cls : ClassId) (id : String) (selector : Selector) (values : FieldValues)
      (isWeak : Bool)
  | list (cls : ClassId) (domain : String) (selector : Selector)
  | search (cls : ClassId) (query : String) (selector : Selector)
  | currentUser (method : CurrentUserMethod) (selector : Selector)

namespace Demand

def selector : Demand → Selector
  | .entity _ _ selector _ _ | .list _ _ selector | .search _ _ selector
  | .currentUser _ selector => selector

def values : Demand → FieldValues
  | .entity _ _ _ values _ => values
  | .list _ _ _ | .search _ _ _ | .currentUser _ _ => []

def place : Demand → Run Unit
  | .entity cls id selector values isWeak => do
      let _ ← Run.spawn cls id selector values isWeak
  | .list cls domain selector => do
      let _ ← Run.wantList cls domain selector
  | .search cls query selector => do
      let _ ← Run.wantSearch cls query selector
  | .currentUser method selector => do
      let _ ← method.load selector

def placeAll : List Demand → Run Unit
  | [] => pure ()
  | demand :: rest => do
      demand.place
      placeAll rest

end Demand

/-- The selector of what has to be done before the first round. -/
def Prerequisite.selector : Prerequisite → Selector
  | .list _ _ selector _ | .search _ _ selector _ => selector

def Catalog.Finds (catalog : Catalog) (cls inner : ClassId) : Prop :=
  ∃ method item field, catalog.searchMethod? cls = some method ∧
    method.itemField catalog.schema = .ok (item, field) ∧ field.kind.target? = some inner

/-- Entities of the class are spawned with the selector of the demand. -/
def Demand.Begins (catalog : Catalog) : Demand → ClassId → Prop
  | .entity cls _ _ _ _, begun | .list cls _ _, begun => begun = cls
  | .search cls _ _, begun => catalog.Finds cls begun
  | .currentUser method _, begun => begun = method.cls

/-- Entities of the class are spawned with the selector of the prerequisite. -/
def Prerequisite.Begins (catalog : Catalog) : Prerequisite → ClassId → Prop
  | .list cls _ _ _, begun => begun = cls
  | .search cls _ _ _, begun => catalog.Finds cls begun

namespace Run

variable {context : RunContext} {before after : RunState}

/-- Spawning leaves the pools and the prerequisites alone, and new targets go to the end. -/
def appending (context : RunContext) : Discipline context where
  embeds := True
  given _ _ _ := True
  admits _ _ := True
  invariant _ := True
  leads before after := after.pools = before.pools ∧
    after.prerequisites = before.prerequisites ∧ before.spawned <+: after.spawned
  serves _ _ _ _ := True
  knows _ _ := True
  refl _ := ⟨rfl, rfl, List.prefix_refl _⟩
  trans first second :=
    ⟨second.1.trans first.1, second.2.1.trans first.2.1, first.2.2.trans second.2.2⟩
  keeps _ serve := serve
  known _ := trivial
  remains _ known := known
  below _ _ _ := trivial
  spawns _ _ _ _ done := ⟨trivial, appended done, trivial⟩
  roots _ _ _ done := ⟨trivial, appended done⟩
  frame _ _ _ _ _ := ⟨trivial, rfl, rfl, List.prefix_refl _⟩
  shelves := by
    intro before after cls id sub values entity _ _ done
    obtain ⟨_, rfl⟩ := yields_alloc_iff.mp done
    exact ⟨trivial, ⟨rfl, rfl, List.prefix_refl _⟩, trivial⟩
where
  appended {before after : RunState} {cls : ClassId} {id : String} {selector : Selector}
      {values : FieldValues} {isWeak : Bool} {entity : Handle}
      (done : Yields context (spawn cls id selector values isWeak) before entity after) :
      after.pools = before.pools ∧ after.prerequisites = before.prerequisites ∧
        before.spawned <+: after.spawned := by
    obtain ⟨_, target, _, _, _, _, _, rfl⟩ := spawn_cases done
    exact ⟨rfl, rfl, List.prefix_append _ _⟩

/-- The targets spawned after the first `count` ones are well formed, and `admits` admits their
selectors. -/
def queueing (context : RunContext) (count : Nat) (admits : ClassId → Selector → Prop)
    (distinct : ∀ {cls selector}, admits cls selector → selector.Distinct)
    (below : ∀ {cls selector name sub inner}, admits cls selector →
      (name, sub) ∈ selector.resolved → context.catalog.schema.Refers cls name inner →
        admits inner sub) :
    Discipline context where
  embeds := True
  given _ _ _ := True
  admits := admits
  invariant state :=
    ∀ target ∈ state.spawned.drop count, target.WellFormed ∧ admits target.cls target.selector
  leads _ _ := True
  serves _ _ _ _ := True
  knows _ _ := True
  refl _ := trivial
  trans _ _ := trivial
  keeps _ serve := serve
  known _ := trivial
  remains _ known := known
  below := below
  spawns valid admitted _ _ done := ⟨queued valid admitted done, trivial, trivial⟩
  roots valid admitted _ done := ⟨queued valid admitted done, trivial⟩
  frame _ _ _ valid _ := ⟨valid, trivial⟩
  shelves := by
    intro before after cls id sub values entity valid _ done
    obtain ⟨_, rfl⟩ := yields_alloc_iff.mp done
    exact ⟨valid, trivial, trivial⟩
where
  queued {before after : RunState} {cls : ClassId} {id : String} {selector : Selector}
      {values : FieldValues} {isWeak : Bool} {entity : Handle}
      (valid : ∀ target ∈ before.spawned.drop count,
        target.WellFormed ∧ admits target.cls target.selector)
      (admitted : admits cls selector)
      (done : Yields context (spawn cls id selector values isWeak) before entity after) :
      ∀ target ∈ after.spawned.drop count,
        target.WellFormed ∧ admits target.cls target.selector := by
    obtain ⟨_, target, _, _, _, _, continues, rfl⟩ := spawn_cases done
    intro other member
    rw [List.drop_append] at member
    rcases List.mem_append.mp member with old | new
    · exact valid other old
    · cases List.mem_singleton.mp (List.mem_of_mem_filter (List.mem_of_mem_drop new))
      have fresh : Target.WellFormed ⟨entity, cls, id, selector, selector.names, isWeak⟩ :=
        ⟨distinct admitted, (distinct admitted).nodup, List.Subset.refl _⟩
      exact ⟨fresh.continues continues, continues.cls ▸ continues.selector ▸ admitted⟩

@[simp] theorem yields_newSlot_iff {slot : Nat} :
    Yields context newSlot before slot after ↔
      slot = before.outputs.size ∧
        after = { before with outputs := before.outputs.push [] } := by
  simp only [newSlot, yields_bind_iff, yields_get_iff, yields_modify_iff, yields_pure_iff]
  constructor
  · rintro ⟨_, _, ⟨rfl, rfl⟩, _, _, rfl, rfl, rfl⟩
    exact ⟨rfl, rfl⟩
  · rintro ⟨rfl, rfl⟩
    exact ⟨_, _, ⟨rfl, rfl⟩, ⟨⟩, _, rfl, rfl, rfl⟩

namespace Discipline

variable {α : Type} {discipline : Discipline context}

theorem Ensures.andYields {step : Run α} {good : α → RunState → Prop}
    (ensured : discipline.Ensures before step good) :
    discipline.Ensures before step fun result after =>
      good result after ∧ Yields context step before result after := by
  apply (Meets.andYields ensured).mono ?_ fun _ failed => failed
  exact fun result after met => ⟨met.1.1, met.1.2, met.2⟩

theorem ensures_setOutput {slot : Nat} {entities : List Handle}
    (valid : discipline.invariant before)
    (known : ∀ entity ∈ entities, discipline.knows before entity) :
    discipline.Ensures before (setOutput slot entities) fun _ _ => True := by
  have filled : ∀ output ∈ before.outputs.modify slot fun _ => entities, ∀ entity ∈ output,
      (∃ old ∈ before.outputs, entity ∈ old) ∨ discipline.knows before entity := by
    intro output member entity inside
    obtain ⟨index, bound, rfl⟩ := Array.mem_iff_getElem.mp member
    rw [Array.getElem_modify] at inside
    split at inside
    · exact .inr (known entity inside)
    · exact .inl ⟨_, Array.getElem_mem _, inside⟩
  obtain ⟨validAfter, later⟩ := discipline.frame before.calls before.stats _ valid filled
  exact ensures_modify ⟨validAfter, later⟩ trivial

def AdmitsBegun (discipline : Discipline context) (prerequisite : Prerequisite) : Prop :=
  ∀ cls, prerequisite.Begins context.catalog cls → discipline.admits cls prerequisite.selector

theorem satisfy (embeds : discipline.embeds) {prerequisite : Prerequisite}
    (admitted : discipline.AdmitsBegun prerequisite) (valid : discipline.invariant before) :
    discipline.Ensures before (Run.satisfy prerequisite) fun _ _ => True := by
  cases prerequisite with
  | list cls domain selector slot =>
      apply ensures_read_bind
      split
      · apply (ensures_className cls valid).bind
        exact fun _ _ reached _ => ensures_throw _ reached.valid
      · rename_i method found
        have same : method.cls = cls := by
          have matching := List.find?_some found
          simp only [Bool.and_eq_true, beq_iff_eq] at matching
          exact matching.1
        apply (list_execute embeds method (admitted _ same) valid).bind
        intro entities middle executed served
        exact ensures_setOutput executed.valid fun entity member =>
          discipline.known (served entity member)
  | search cls query selector slot =>
      apply ensures_read_bind
      split
      · apply (ensures_className cls valid).bind
        exact fun _ _ reached _ => ensures_throw _ reached.valid
      · rename_i method found
        apply (search_execute embeds method (fun item field opened inner refers =>
          admitted inner ⟨method, item, field, found, opened, refers⟩) query valid).bind
        intro entities middle executed known
        exact ensures_setOutput executed.valid known

theorem satisfyAll (embeds : discipline.embeds) {prerequisites : List Prerequisite}
    (admitted : ∀ prerequisite ∈ prerequisites, discipline.AdmitsBegun prerequisite)
    (valid : discipline.invariant before) :
    discipline.Ensures before (Run.satisfyAll prerequisites) fun _ _ => True := by
  induction prerequisites generalizing before with
  | nil => exact ensures_pure valid trivial
  | cons prerequisite rest inductionHypothesis =>
      apply (satisfy embeds (admitted _ (by simp)) valid).bind
      intro _ middle first _
      exact inductionHypothesis (fun other member => admitted other (by simp [member])) first.valid

def IgnoresPrerequisites (discipline : Discipline context) : Prop :=
  ∀ ⦃state⦄ prerequisites, discipline.invariant state →
    discipline.Reaches state { state with prerequisites := prerequisites }

def Awaits (discipline : Discipline context) (state : RunState) : Prop :=
  ∀ prerequisite ∈ state.prerequisites, discipline.AdmitsBegun prerequisite

structure Accepts (discipline : Discipline context) (state : RunState) (demand : Demand) :
    Prop where
  given : ∀ cls, demand.Begins context.catalog cls → discipline.given state cls demand.values
  begun : ∀ cls, demand.Begins context.catalog cls → discipline.admits cls demand.selector

def AcceptsAll (discipline : Discipline context) (before : RunState) (demands : List Demand) :
    Prop :=
  ∀ placed demand rest, demands = placed ++ demand :: rest → ∀ state,
    Yields context (Demand.placeAll placed) before () state → discipline.Accepts state demand

theorem acceptsAll_of_forall {demands : List Demand}
    (accepted : ∀ demand ∈ demands, ∀ state, discipline.Accepts state demand) :
    discipline.AcceptsAll before demands := by
  rintro placed demand rest rfl state _
  exact accepted demand (by simp) state

theorem ensures_want (ignores : discipline.IgnoresPrerequisites)
    (prerequisite : Nat → Prerequisite) (valid : discipline.invariant before)
    (awaits : discipline.Awaits before)
    (admitted : ∀ slot, discipline.AdmitsBegun (prerequisite slot)) :
    discipline.Ensures before (do
      let slot ← newSlot
      modify fun state =>
        { state with prerequisites := state.prerequisites ++ [prerequisite slot] }
      return slot) fun _ after => discipline.Awaits after ∧ after.pools = before.pools := by
  have fresh : ∀ output ∈ before.outputs.push [], ∀ entity ∈ output,
      (∃ old ∈ before.outputs, entity ∈ old) ∨ discipline.knows before entity := by
    intro output member entity inside
    rcases Array.mem_push.mp member with old | rfl
    · exact .inl ⟨output, old, inside⟩
    · cases inside
  obtain ⟨validSlot, later⟩ := discipline.frame before.calls before.stats _ valid fresh
  have slotted : discipline.Ensures before newSlot fun _ after =>
      after = { before with outputs := before.outputs.push [] } :=
    ensures_of_yields (yields_newSlot_iff.mpr ⟨rfl, rfl⟩) ⟨validSlot, later⟩ rfl
  apply slotted.bind
  rintro slot _ _ rfl
  have wanted : discipline.Ensures { before with outputs := before.outputs.push [] }
      (modify fun state =>
        { state with prerequisites := state.prerequisites ++ [prerequisite slot] })
      fun _ after => discipline.Awaits after ∧ after.pools = before.pools := by
    apply ensures_modify (ignores _ validSlot)
    refine ⟨fun other member => ?_, rfl⟩
    rcases List.mem_append.mp member with old | new
    · exact awaits other old
    · cases List.mem_singleton.mp new
      exact admitted _
  exact wanted.bind fun _ after reached found => ensures_pure reached.valid found

/-- Placing a demand adds it to what waits, if it does not serve it at once. -/
theorem place (embeds : discipline.embeds) (ignores : discipline.IgnoresPrerequisites)
    {demand : Demand} (accepted : discipline.Accepts before demand)
    (valid : discipline.invariant before) (awaits : discipline.Awaits before) :
    discipline.Ensures before demand.place fun _ after =>
      discipline.Awaits after ∧ after.pools = before.pools := by
  have discard {α : Type} {step : Run α}
      (ensured : discipline.Ensures before step fun _ after =>
        discipline.Awaits after ∧ after.pools = before.pools) :
      discipline.Ensures before (do let _ ← step) fun _ after =>
        discipline.Awaits after ∧ after.pools = before.pools :=
    ensured.bind fun _ _ reached found => ensures_pure reached.valid found
  cases demand with
  | entity cls id selector values isWeak =>
      obtain ⟨entity, after, done⟩ : Succeeds context (spawn cls id selector values isWeak) before :=
        succeeds_spawn _ _ _ _ _ _
      obtain ⟨validAfter, later⟩ :=
        discipline.roots valid (accepted.begun cls rfl) (accepted.given cls rfl) done
      obtain ⟨_, target, _, _, _, _, _, rfl⟩ := spawn_cases done
      apply discard
      exact ensures_of_yields done ⟨validAfter, later⟩ ⟨awaits, rfl⟩
  | list cls domain selector =>
      apply discard
      exact ensures_want ignores (.list cls domain selector) valid awaits
        fun _ => accepted.begun
  | search cls query selector =>
      apply discard
      exact ensures_want ignores (.search cls query selector) valid awaits
        fun _ => accepted.begun
  | currentUser method selector =>
      have kept : (appending context).Finds method.cls selector (method.load selector) fun user =>
        [user] := currentUser_load trivial method trivial
      apply discard
      apply (currentUser_load embeds method (accepted.begun _ rfl) valid).andYields.mono
      rintro user after ⟨_, loaded⟩
      obtain ⟨_, samePools, samePrerequisites, _⟩ := ((kept trivial).yields loaded).1
      exact ⟨fun other member => awaits other (samePrerequisites ▸ member), samePools⟩

theorem placeAll (embeds : discipline.embeds) (ignores : discipline.IgnoresPrerequisites)
    {demands : List Demand} (accepted : discipline.AcceptsAll before demands)
    (valid : discipline.invariant before) (awaits : discipline.Awaits before) :
    discipline.Ensures before (Demand.placeAll demands) fun _ after =>
      discipline.Awaits after ∧ after.pools = before.pools := by
  induction demands generalizing before with
  | nil => exact ensures_pure valid ⟨awaits, rfl⟩
  | cons demand rest inductionHypothesis =>
      have own := accepted [] demand rest rfl before (yields_pure_iff.mpr ⟨rfl, rfl⟩)
      apply (place embeds ignores own valid awaits).andYields.bind
      rintro _ middle first ⟨⟨awaitsMiddle, same⟩, placed⟩
      have others : discipline.AcceptsAll middle rest := by
        intro placedToo other others split state done
        apply accepted (demand :: placedToo) other others (by rw [split, List.cons_append])
        exact yields_bind_iff.mpr ⟨_, _, placed, done⟩
      apply (inductionHypothesis others first.valid awaitsMiddle).mono
      exact fun _ after found => ⟨found.1, found.2.trans same⟩

/-- What holds once the prerequisites are satisfied. The spawned targets are filled into the pools
after that. -/
theorem prepare (embeds : discipline.embeds) (ignores : discipline.IgnoresPrerequisites)
    (valid : discipline.invariant before) (awaits : discipline.Awaits before) :
    Meets context prepare before
      (fun _ after => ∃ satisfied, discipline.Reaches before satisfied ∧
        satisfied.pools = before.pools ∧ Yields context poolSpawned satisfied () after)
      (discipline.Reaches before) := by
  have emptied := ignores [] valid
  have kept : (appending context).Ensures { before with prerequisites := [] }
      (Run.satisfyAll before.prerequisites) fun _ _ => True :=
    satisfyAll trivial (fun _ _ _ _ => trivial) trivial
  change Meets context (Run.satisfyAll before.prerequisites >>= fun _ => poolSpawned)
    { before with prerequisites := [] } _ _
  apply meets_bind_iff.mpr
  apply Meets.mono (satisfyAll embeds awaits emptied.valid).andYields
  · rintro _ satisfied ⟨reached, _, done⟩
    have pooled : Yields context poolSpawned satisfied () _ := yields_modify_iff.mpr rfl
    refine pooled.meets ⟨satisfied, ?_, ?_, pooled⟩
    · exact emptied.trans reached
    · exact (kept.yields done).1.later.1
  · exact fun after failed => emptied.trans failed

end Discipline

end Run

end EntityResolver
