import EntityResolver.Proofs.Catalog.Pickers
import EntityResolver.Proofs.Run.Demands
import EntityResolver.Proofs.Run.Reading
import EntityResolver.Run.Fetch
import EntityResolver.Run.Prerequisite

/-!
Properties of steps that a composed step has if its parts have them.

Reading a response is composed of spawning, and fails in ways of its own only. With calls it makes
up fetching, and with some bookkeeping all that goes before the first round. So a property that is
closed under composition is checked of a few steps, and carried over to all that is composed of
them.
-/

set_option autoImplicit false

namespace EntityResolver

namespace ResolveError

/-- Only a round, or the end of a run, fails so. -/
def isOfRound : ResolveError → Bool
  | .entityNotFound _ _ | .noApplicableMethod _ _ | .tooManyRounds _ => true
  | _ => false

/-- Reading would have gone on for ever. -/
def isEndless : ResolveError → Bool
  | .malformed _ (.endlessList _) => true
  | _ => false

def isPlain (error : ResolveError) : Bool :=
  !error.isOfRound && !error.isEndless

theorem isOfRound_of_isPlain {error : ResolveError} (plain : error.isPlain = true) :
    error.isOfRound = false := by
  simp_all [isPlain]

theorem isEndless_of_isPlain {error : ResolveError} (plain : error.isPlain = true) :
    error.isEndless = false := by
  simp_all [isPlain]

end ResolveError

def Unfazed {α : Type} (outcome : Except ResolveError α) : Prop :=
  ∀ error, outcome = .error error → error.isPlain = true

section Unfazed

variable {α β : Type}

theorem unfazed_ok (value : α) : Unfazed (.ok value) :=
  nofun

theorem unfazed_error {error : ResolveError} (plain : error.isPlain = true) :
    Unfazed (.error error : Except ResolveError α) := by
  rintro _ ⟨⟩
  exact plain

theorem Unfazed.bind {outcome : Except ResolveError α} {next : α → Except ResolveError β}
    (first : Unfazed outcome) (rest : ∀ value, Unfazed (next value)) :
    Unfazed (outcome >>= next) := by
  cases outcome with
  | ok value => exact rest value
  | error error => exact unfazed_error (first error rfl)

theorem unfazed_value (outcome : Except ValueError α) : Unfazed (liftError .value outcome) := by
  cases outcome with
  | ok value => exact unfazed_ok value
  | error error => exact unfazed_error rfl

theorem unfazed_id (id : IdSpec) (path : String) (response : Json) :
    Unfazed (id.load path response) := by
  have lookUp (key : String) : Unfazed (IdSpec.lookUp path response key) := by
    unfold IdSpec.lookUp
    split
    · exact unfazed_ok _
    · exact unfazed_error rfl
  have lookUpTexts (keys : List String) : Unfazed (IdSpec.lookUpTexts path response keys) := by
    induction keys with
    | nil => exact unfazed_ok _
    | cons key rest inductionHypothesis =>
        exact (lookUp key).bind fun _ => inductionHypothesis.bind fun _ => unfazed_ok _
  cases id with
  | elementary key => exact (lookUp key).bind fun _ => unfazed_ok _
  | composite keys => exact (lookUpTexts keys).bind fun _ => unfazed_ok _

theorem unfazed_target (field : Field) (path : String) : Unfazed (field.target path) := by
  unfold Field.target
  split
  · exact unfazed_ok _
  · exact unfazed_error rfl

theorem unfazed_itemsOf (path key : String) (value : Json) :
    Unfazed (Run.itemsOf path key value) := by
  unfold Run.itemsOf
  split
  · exact unfazed_ok _
  · exact unfazed_ok _
  · exact unfazed_error rfl

theorem unfazed_membersOf (path key : String) (value : Json) :
    Unfazed (Run.membersOf path key value) := by
  unfold Run.membersOf
  split
  · exact unfazed_ok _
  · exact unfazed_ok _
  · exact unfazed_error rfl

theorem unfazed_missingKey (path : String) (field : Field) (key : String) :
    Unfazed (Run.missingKey path field key) := by
  unfold Run.missingKey
  split
  · exact unfazed_ok _
  · exact unfazed_error rfl

theorem unfazed_walk (path : String) (steps : List ListStep) (value : Json) :
    Unfazed (walk path steps value) := by
  have walkAll {way : Json → Except ResolveError (List Json)} (each : ∀ value, Unfazed (way value))
      (values : List Json) : Unfazed (walk.walkAll way values) := by
    induction values with
    | nil => exact unfazed_ok _
    | cons value rest inductionHypothesis =>
        exact (each value).bind fun _ => inductionHypothesis.bind fun _ => unfazed_ok _
  induction steps generalizing value with
  | nil => exact unfazed_ok _
  | cons step rest inductionHypothesis =>
      cases step with
      | key key =>
          unfold walk
          split
          · exact inductionHypothesis _
          · exact unfazed_error rfl
      | each =>
          unfold walk
          split
          · exact walkAll inductionHypothesis _
          · exact walkAll inductionHypothesis _
          · exact unfazed_ok _
          · exact unfazed_error rfl

theorem unfazed_itemField (method : SearchMethod) (schema : Schema) :
    Unfazed (method.itemField schema) := by
  unfold SearchMethod.itemField
  split
  · exact unfazed_error rfl
  · split
    · exact unfazed_ok _
    · exact unfazed_error rfl

end Unfazed

/-- What a reply to a call for an entity says of it. -/
def SingleGetter.hear (method : SingleGetter) (selector : Selector) : Reply → Run FetchOutcome
  | .ok .null => return .absent
  | .ok response => return .found (← method.pickers.load method.path method.cls response selector)
  | .error failure =>
      if method.meansAbsence failure then return .absent else throw (.remote failure)

theorem SingleGetter.fetch_eq (method : SingleGetter) (id : String) (selector : Selector) :
    method.fetch id selector = (do
      let params ← ofExcept (liftError .value (method.params id selector))
      let reply ← Run.call method.path params
      method.hear selector reply) := by
  refine bind_congr fun params => bind_congr fun reply => ?_
  cases reply with
  | ok response => cases response <;> rfl
  | error failure => rfl

def BatchGetter.read (method : BatchGetter) (ids : List String) (selector : Selector)
    (response : Json) : Run FetchResults :=
  match method.layout with
  | .listed spec => method.readListed spec ids selector response
  | .keyed =>
      match response with
      | .object _ => method.readKeyed selector response ids
      | _ => throw (.malformed method.path .batchNotKeyed)

theorem BatchGetter.fetchAll_eq (method : BatchGetter) (ids : List String) (selector : Selector) :
    method.fetchAll ids selector = (do
      let params ← ofExcept (liftError .value (method.params ids selector))
      let response ← Run.callOrFail method.path params
      method.read ids selector response) :=
  rfl

namespace Prerequisite

def slot : Prerequisite → Nat
  | .list _ _ _ slot | .search _ _ _ slot => slot

def find : Prerequisite → Run (List Handle)
  | .list cls domain selector _ => do
      match (← read).catalog.listMethod? cls domain with
      | none => throw (.noListMethod (← Run.className cls) domain)
      | some method => method.execute selector
  | .search cls query selector _ => do
      match (← read).catalog.searchMethod? cls with
      | none => throw (.noSearchMethod (← Run.className cls))
      | some method => method.execute query selector

end Prerequisite

namespace Run

theorem satisfy_eq (prerequisite : Prerequisite) :
    satisfy prerequisite = prerequisite.find >>= setOutput prerequisite.slot := by
  cases prerequisite with
  | list cls domain selector slot =>
      rw [Prerequisite.find, bind_assoc]
      refine bind_congr fun context => ?_
      cases context.catalog.listMethod? cls domain <;> rfl
  | search cls query selector slot =>
      rw [Prerequisite.find, bind_assoc]
      refine bind_congr fun context => ?_
      cases context.catalog.searchMethod? cls <;> rfl

section Find

variable {context : RunContext} {before after : RunState} {cls : ClassId} {selector : Selector}

theorem yields_find_list {domain : String} {slot : Nat} {handles : List Handle}
    (done : Yields context (Prerequisite.list cls domain selector slot).find before handles after) :
    ∃ method, context.catalog.listMethod? cls domain = some method ∧
      Yields context (method.execute selector) before handles after := by
  obtain ⟨_, _, known, finds⟩ := yields_bind_iff.mp done
  obtain ⟨same, rfl⟩ := yields_read_iff.mp known
  subst same
  split at finds
  · obtain ⟨_, _, _, raised⟩ := yields_bind_iff.mp finds
    exact absurd raised not_yields_throw
  · rename_i method found
    exact ⟨method, found, finds⟩

theorem yields_find_search {query : String} {slot : Nat} {handles : List Handle}
    (done : Yields context (Prerequisite.search cls query selector slot).find before handles
      after) :
    ∃ method, context.catalog.searchMethod? cls = some method ∧
      Yields context (method.execute query selector) before handles after := by
  obtain ⟨_, _, known, finds⟩ := yields_bind_iff.mp done
  obtain ⟨same, rfl⟩ := yields_read_iff.mp known
  subst same
  split at finds
  · obtain ⟨_, _, _, raised⟩ := yields_bind_iff.mp finds
    exact absurd raised not_yields_throw
  · rename_i method found
    exact ⟨method, found, finds⟩

end Find

/-- What is read in a run: which pickers read fields that are selected so, and by which catalogs.
What is read inside an entity is in scope with it. -/
structure Scope where
  admits : Picker → Selector → Prop
  covers : Catalog → Prop
  inside : ∀ {picker selector name sub other}, admits picker selector →
    (name, sub) ∈ selector.resolved → picker.inside.find? name = some other → admits other sub

namespace Scope

def Reads (scope : Scope) (fields : FieldPickers) (selector : Selector) : Prop :=
  ∀ ⦃name sub⦄, (name, sub) ∈ selector.resolved →
    ∀ picker, fields.find? name = some picker → scope.admits picker sub

/-- The method of a catalog may find what the slot is to be filled with. -/
def Finds (scope : Scope) (catalog : Catalog) : Prerequisite → Prop
  | .list cls domain selector _ => ∀ ⦃method⦄,
      catalog.listMethod? cls domain = some method → scope.Reads method.pickers.fields selector
  | .search cls _ selector _ => ∀ ⦃method⦄,
      catalog.searchMethod? cls = some method → scope.admits method.picker selector

/-- What is demanded may be read, as far as it is read at once. -/
def Places (scope : Scope) : Demand → Prop
  | .currentUser method selector => scope.Reads method.pickers.fields selector
  | .entity _ _ _ _ _ | .list _ _ _ | .search _ _ _ => True

def everything : Scope where
  admits _ _ := True
  covers _ := True
  inside _ _ _ := trivial

theorem reads_everything {fields : FieldPickers} {selector : Selector} :
    everything.Reads fields selector :=
  fun _ _ _ _ _ => trivial

theorem finds_everything (catalog : Catalog) (prerequisite : Prerequisite) :
    everything.Finds catalog prerequisite := by
  cases prerequisite with
  | list _ _ _ _ => exact fun _ _ => reads_everything
  | search _ _ _ _ => exact fun _ _ => trivial

theorem places_everything (demand : Demand) : everything.Places demand := by
  cases demand with
  | currentUser _ _ => exact reads_everything
  | _ => trivial

end Scope

/-- What is composed of steps with the property has it too, and so have the steps that reading
responses is composed of, nested lists aside. -/
structure ClosedUnderSteps (scope : Scope) (holds : ∀ {α : Type}, Run α → Prop) : Prop where
  protected pure : ∀ {α : Type} (value : α), holds (pure value : Run α)
  protected bind : ∀ {α β : Type} {step : Run α} {next : α → Run β}, holds step →
    (∀ value, holds (next value)) → holds (step >>= next)
  protected throw : ∀ {α : Type} {error : ResolveError}, error.isPlain = true →
    holds (throw error : Run α)
  protected read : ∀ {α : Type} {next : RunContext → Run α},
    (∀ context, scope.covers context.catalog → holds (next context)) → holds (read >>= next)
  protected spawn : ∀ cls id selector values, holds (spawn cls id selector values false)
  protected alloc : ∀ cls id values, holds (alloc cls id values)

structure ClosedUnderReading (scope : Scope) (holds : ∀ {α : Type}, Run α → Prop) : Prop
    extends ClosedUnderSteps scope holds where
  protected list : ∀ {plan : ListPlan} {fields : FieldPickers} {hasSubfields : Bool},
    scope.admits (.nested .list plan.key plan.id fields hasSubfields plan.lifts plan.unique)
      plan.sub →
    (∀ cls response name sub, (name, sub) ∈ plan.sub.resolved →
      holds (fields.loadField plan.path cls response name sub)) →
    ∀ response,
      holds (loadList plan (fields.loadField plan.path) (plan.depthIn response) response)

structure ClosedUnderCalling (scope : Scope) (holds : ∀ {α : Type}, Run α → Prop) : Prop
    extends ClosedUnderReading scope holds where
  protected call : ∀ path params, holds (call path params)

structure ClosedUnderBeginning (scope : Scope) (holds : ∀ {α : Type}, Run α → Prop) : Prop
    extends ClosedUnderCalling scope holds where
  protected get : holds (get : Run RunState)
  protected root : ∀ cls id selector values isWeak, holds (Run.spawn cls id selector values isWeak)
  protected arrange : ∀ (wanted : RunState → List Prerequisite)
    (outputs : RunState → Array (List Handle)), holds (modify fun state =>
      { state with prerequisites := wanted state, outputs := outputs state } : Run PUnit)

variable {scope : Scope} {holds : ∀ {α : Type}, Run α → Prop} {α : Type}

namespace ClosedUnderSteps

variable (closed : ClosedUnderSteps scope holds)

include closed

protected theorem ofExcept {outcome : Except ResolveError α} (unfazed : Unfazed outcome) :
    holds (ofExcept outcome : Run α) := by
  cases outcome with
  | ok value => exact closed.pure value
  | error error => exact closed.throw (unfazed error rfl)

protected theorem schema : holds schema :=
  closed.read fun _ _ => closed.pure _

protected theorem className (cls : ClassId) : holds (className cls) :=
  closed.bind closed.schema fun _ => closed.pure _

section Fields

variable {loadField : LoadField} {selector : Selector}
variable (each : ∀ cls response name sub, (name, sub) ∈ selector.resolved →
  holds (loadField cls response name sub))

include each

protected theorem loadValues (cls : ClassId) (response : Json) :
    holds (loadValues loadField cls response selector) := by
  unfold Run.loadValues
  generalize selector.resolved = entries at each
  induction entries with
  | nil => exact closed.pure _
  | cons entry rest inductionHypothesis =>
      exact closed.bind (each cls response _ _ List.mem_cons_self) fun _ =>
        closed.bind (inductionHypothesis fun _ _ _ _ member =>
          each _ _ _ _ (List.mem_cons_of_mem _ member)) fun _ => closed.pure _

protected theorem loadEntity (path : String) (id : IdSpec) (cls : ClassId) (response : Json) :
    holds (loadEntity path id loadField cls response selector) := by
  refine closed.bind (closed.ofExcept (unfazed_id id path response)) fun id? => ?_
  cases id? with
  | none => exact closed.pure none
  | some id =>
      exact closed.bind (closed.loadValues each cls response) fun values =>
        closed.bind (closed.spawn cls id selector values) fun _ => closed.pure _

end Fields

section Items

variable {loadOne : Json → Run (Option Handle)} (each : ∀ item, holds (loadOne item))

include each

protected theorem loadPresent (item : Json) : holds (loadPresent loadOne item) := by
  unfold Run.loadPresent
  split
  · exact closed.pure none
  · exact each item

protected theorem loadEntities (items : List Json) : holds (loadEntities loadOne items) := by
  induction items with
  | nil => exact closed.pure []
  | cons item rest inductionHypothesis =>
      rw [loadEntities_cons]
      exact closed.bind (closed.loadPresent each item) fun _ =>
        closed.bind inductionHypothesis fun _ => closed.pure _

protected theorem loadMembers (members : List (String × Json)) :
    holds (loadMembers loadOne members) := by
  induction members with
  | nil => exact closed.pure []
  | cons member rest inductionHypothesis =>
      rw [loadMembers_cons]
      exact closed.bind (closed.loadPresent each member.2) fun _ =>
        closed.bind inductionHypothesis fun _ => closed.pure _

end Items

protected theorem spawnAll (cls : ClassId) (sub : Selector) (ids : List String) :
    holds (spawnAll cls sub ids) := by
  induction ids with
  | nil => exact closed.pure []
  | cons id rest inductionHypothesis =>
      exact closed.bind (closed.spawn cls id sub []) fun _ =>
        closed.bind inductionHypothesis fun _ => closed.pure _

protected theorem spawnMap (cls : ClassId) (sub : Selector) (built : OrderedMap Handle)
    (entries : List (String × String)) : holds (spawnMap cls sub built entries) := by
  induction entries generalizing built with
  | nil => exact closed.pure built
  | cons entry rest inductionHypothesis =>
      exact closed.bind (closed.spawn cls entry.2 sub []) fun _ => inductionHypothesis _

section Nested

variable {plan : ListPlan} {loadField : LoadField}
variable (each : ∀ cls response name sub, (name, sub) ∈ plan.sub.resolved →
  holds (loadField cls response name sub))

include each

protected theorem loadItems {below : Json → Run (List Handle)} {response : Json}
    {seen : List String} {items : List Json}
    (further : ∀ item ∈ items, plan.sub.isRecursive plan.field.name = true →
      holds (below (liftInto plan.lifts response item))) :
    holds (loadItems plan loadField below response seen items) := by
  induction items generalizing seen with
  | nil => exact closed.pure []
  | cons item rest inductionHypothesis =>
      have remaining (seen : List String) :
          holds (loadItems plan loadField below response seen rest) :=
        inductionHypothesis fun other member => further other (List.mem_cons_of_mem _ member)
      refine closed.bind (closed.ofExcept (unfazed_id _ _ _)) fun id? => ?_
      cases id? with
      | none => exact remaining seen
      | some id =>
          dsimp only
          split
          · exact remaining seen
          · refine closed.bind (closed.loadValues each _ _) fun values => ?_
            have spawns (values : FieldValues) : holds (do
                let entity ← spawn plan.cls id plan.sub values false
                let entities ← loadItems plan loadField below response (id :: seen) rest
                return entity :: entities) :=
              closed.bind (closed.spawn _ _ _ _) fun _ =>
                closed.bind (remaining _) fun _ => closed.pure _
            split
            · rename_i descends
              exact closed.bind
                (further item List.mem_cons_self (Bool.and_eq_true_iff.mp descends).1) fun _ =>
                  closed.bind (closed.pure _) spawns
            · exact closed.bind (closed.pure values) spawns

/-- A list is read to any depth, where it may fail because it is too deep. -/
protected theorem loadList
    (endless : ∀ {path key}, holds (throw (.malformed path (.endlessList key)) : Run (List Handle)))
    (depth : Nat) (response : Json) : holds (loadList plan loadField depth response) := by
  induction depth generalizing response with
  | zero => exact endless
  | succ depth inductionHypothesis =>
      unfold Run.loadList
      split
      · exact closed.pure []
      · exact closed.bind (closed.ofExcept (unfazed_itemsOf _ _ _)) fun items =>
          closed.loadItems each fun _ _ _ => inductionHypothesis _

protected theorem loadAncestors (response : Json) (nearest : Option Handle) (items : List Json) :
    holds (loadAncestors plan loadField response nearest items) := by
  induction items generalizing nearest with
  | nil => exact closed.pure nearest
  | cons item rest inductionHypothesis =>
      refine closed.bind (closed.ofExcept (unfazed_id _ _ _)) fun id? => ?_
      cases id? with
      | none => exact inductionHypothesis nearest
      | some id =>
          exact closed.bind (closed.loadValues each _ _) fun _ =>
            closed.bind (closed.spawn _ _ _ _) fun _ => inductionHypothesis _

protected theorem loadNested (shape : NestedShape) {response : Json}
    (listed : shape = .list →
      holds (loadList plan loadField (plan.depthIn response) response)) (value : Json) :
    holds (loadNested shape plan loadField response value) := by
  have loadOne (item : Json) := closed.loadEntity each plan.path plan.id plan.cls
    (liftInto plan.lifts response item)
  cases shape with
  | single =>
      unfold Run.loadNested
      dsimp only
      split
      · exact closed.pure _
      · exact closed.bind (loadOne value) fun _ => closed.pure _
  | list => exact closed.bind (listed rfl) fun _ => closed.pure _
  | map =>
      exact closed.bind (closed.ofExcept (unfazed_membersOf _ _ _)) fun members =>
        closed.bind (closed.loadMembers loadOne members) fun _ => closed.pure _
  | ancestors =>
      refine closed.bind (closed.ofExcept (unfazed_itemsOf _ _ _)) fun items => ?_
      dsimp only
      split
      · exact closed.bind (closed.loadAncestors each response none items) fun _ => closed.pure _
      · split
        · exact closed.pure _
        · exact closed.bind (loadOne _) fun _ => closed.pure _

end Nested

protected theorem withKey {load : Json → Run (FieldValue Handle)}
    (each : ∀ value, holds (load value)) (path key : String) (field : Field) (response : Json) :
    holds (withKey path field key response load) := by
  unfold Run.withKey
  split
  · exact closed.ofExcept (unfazed_missingKey path field key)
  · exact each _

/-- Of a property that steps may also have when they find lists without end, nothing more is to be
known. -/
theorem reading (endless : ∀ {path key},
    holds (throw (.malformed path (.endlessList key)) : Run (List Handle))) :
    ClosedUnderReading scope holds where
  toClosedUnderSteps := closed
  list _ each response := closed.loadList each endless _ response

end ClosedUnderSteps

namespace ClosedUnderReading

mutual

protected theorem picker (closed : ClosedUnderReading scope holds) (path : String) :
    (picker : Picker) → (field : Field) → (response : Json) → (sub : Selector) →
    scope.admits picker sub → holds (picker.load path field response sub)
  | .scalar rule key, field, response, _, _ => by
      refine closed.withKey (fun value => ?_) path key field response
      refine closed.read fun context _ => ?_
      split
      · exact closed.pure _
      · exact closed.throw rfl
  | .reference id, field, response, sub, _ => by
      refine closed.bind (closed.ofExcept (unfazed_target field path)) fun cls => ?_
      refine closed.bind (closed.ofExcept (unfazed_id id path response)) fun id? => ?_
      cases id? with
      | none => exact closed.pure _
      | some id => exact closed.bind (closed.spawn cls id sub []) fun _ => closed.pure _
  | .referenceList key, field, response, sub, _ =>
      closed.withKey (fun value =>
        closed.bind (closed.ofExcept (unfazed_target field path)) fun cls =>
          closed.bind (closed.ofExcept (unfazed_itemsOf path key value)) fun items =>
            closed.bind (closed.spawnAll cls sub _) fun _ => closed.pure _)
        path key field response
  | .referenceMap key flipped, field, response, sub, _ =>
      closed.withKey (fun value =>
        closed.bind (closed.ofExcept (unfazed_target field path)) fun cls =>
          closed.bind (closed.ofExcept (unfazed_membersOf path key value)) fun members =>
            closed.bind (closed.spawnMap cls sub [] _) fun _ => closed.pure _)
        path key field response
  | .inline id fields, field, response, sub, admitted => by
      have each (cls : ClassId) (response : Json) (name : String) (inner : Selector)
          (selected : (name, inner) ∈ sub.resolved) :=
        closed.fieldOf path fields cls response name inner
          fun _ found => scope.inside admitted selected found
      exact closed.bind (closed.ofExcept (unfazed_target field path)) fun cls =>
        closed.bind (closed.loadEntity each path id cls response) fun _ => closed.pure _
  | .inlineList id fields, field, response, sub, admitted => by
      have each (cls : ClassId) (response : Json) (name : String) (inner : Selector)
          (selected : (name, inner) ∈ sub.resolved) :=
        closed.fieldOf path fields cls response name inner
          fun _ found => scope.inside admitted selected found
      refine closed.bind (closed.ofExcept (unfazed_target field path)) fun cls => ?_
      have loads (items : List Json) :=
        closed.bind (closed.loadEntities (fun item => closed.loadEntity each path id cls item) items)
          fun entities => closed.pure (FieldValue.list entities)
      dsimp only
      split
      · exact closed.bind (closed.pure _) loads
      · exact closed.bind (closed.pure _) loads
      · exact closed.bind (closed.throw rfl) loads
  | .nested shape key id fields _ lifts unique, field, response, sub, admitted => by
      have each (cls : ClassId) (response : Json) (name : String) (inner : Selector)
          (selected : (name, inner) ∈ sub.resolved) :=
        closed.fieldOf path fields cls response name inner
          fun _ found => scope.inside admitted selected found
      refine closed.withKey (fun value => ?_) path key field response
      refine closed.bind (closed.ofExcept (unfazed_target field path)) fun cls => ?_
      refine closed.loadNested each shape ?_ value
      rintro rfl
      exact closed.list admitted each response

protected theorem fieldOf (closed : ClosedUnderReading scope holds) (path : String) :
    (fields : FieldPickers) → (cls : ClassId) → (response : Json) → (name : String) →
    (sub : Selector) → (∀ picker, fields.find? name = some picker → scope.admits picker sub) →
    holds (fields.loadField path cls response name sub)
  | .none, _, _, _, _, _ => closed.pure none
  | .field other picker rest, cls, response, name, sub, admitted => by
      unfold FieldPickers.loadField
      split
      · rename_i same
        refine closed.bind closed.schema fun schema => ?_
        split
        · exact closed.throw rfl
        · exact closed.bind (closed.picker path picker _ response sub (admitted _ (if_pos same)))
            fun _ => closed.pure _
      · rename_i differs
        exact closed.fieldOf path rest cls response name sub fun picker found =>
          admitted picker ((if_neg differs).trans found)

end

variable (closed : ClosedUnderReading scope holds)

include closed

section Fields

variable {fields : FieldPickers} {selector : Selector} (reads : scope.Reads fields selector)

include reads

protected theorem each (path : String) (cls : ClassId) (response : Json) (name : String)
    (sub : Selector) (selected : (name, sub) ∈ selector.resolved) :
    holds (fields.loadField path cls response name sub) :=
  closed.fieldOf path fields cls response name sub (reads selected)

protected theorem fields (path : String) (cls : ClassId) (response : Json) :
    holds (fields.load path cls response selector) :=
  closed.loadValues (closed.each reads path) cls response

protected theorem entity (path : String) (id : IdSpec) (cls : ClassId) (response : Json) :
    holds (EntityPickers.load ⟨id, fields⟩ path cls response selector) :=
  closed.loadEntity (closed.each reads path) path id cls response

end Fields

protected theorem readListed {method : BatchGetter} {selector : Selector}
    (reads : scope.Reads method.pickers selector) (spec : IdSpec) (ids : List String)
    (response : Json) : holds (method.readListed spec ids selector response) := by
  have records (records : List Json) (found : OrderedMap FieldValues) :
      holds (method.readRecords spec ids selector found records) := by
    induction records generalizing found with
    | nil => exact closed.pure found
    | cons record rest inductionHypothesis =>
        unfold BatchGetter.readRecords
        split
        · exact inductionHypothesis found
        · refine closed.bind (closed.ofExcept (unfazed_id _ _ _)) fun id? => ?_
          cases id? with
          | none => exact inductionHypothesis found
          | some id =>
              dsimp only
              split
              · exact inductionHypothesis found
              · exact closed.bind (closed.fields reads _ _ _) fun _ => inductionHypothesis _
  have reads (items : List Json) :=
    closed.bind (records items []) fun found =>
      closed.bind closed.schema fun schema => closed.pure (ids.map fun id =>
        (id, FetchOutcome.found
          ((found.get? id).getD (BatchGetter.nullValues schema method.cls selector))))
  unfold BatchGetter.readListed
  dsimp only
  split
  · exact closed.bind (closed.pure _) reads
  · exact closed.bind (closed.pure _) reads
  · exact closed.bind (closed.throw rfl) reads

protected theorem readKeyed {method : BatchGetter} {selector : Selector}
    (reads : scope.Reads method.pickers selector) (records : Json) (ids : List String) :
    holds (method.readKeyed selector records ids) := by
  induction ids with
  | nil => exact closed.pure []
  | cons id rest inductionHypothesis =>
      refine closed.bind (closed.ofExcept (unfazed_value _)) fun key => ?_
      have remaining (outcome : FetchOutcome) :=
        closed.bind inductionHypothesis fun results => closed.pure ((id, outcome) :: results)
      dsimp only
      split
      · exact closed.bind (closed.pure _) remaining
      · exact closed.bind (closed.pure _) remaining
      · exact closed.bind (closed.fields reads _ _ _)
          fun _ => closed.bind (closed.pure _) remaining

protected theorem batch {method : BatchGetter} {selector : Selector}
    (reads : scope.Reads method.pickers selector) (ids : List String) (response : Json) :
    holds (method.read ids selector response) := by
  unfold BatchGetter.read
  split
  · exact closed.readListed reads _ ids response
  · split
    · exact closed.readKeyed reads _ ids
    · exact closed.throw rfl

protected theorem hear {method : SingleGetter} {selector : Selector}
    (reads : scope.Reads method.pickers selector) (reply : Reply) :
    holds (method.hear selector reply) := by
  unfold SingleGetter.hear
  split
  · exact closed.pure _
  · exact closed.bind (closed.fields reads _ _ _) fun _ => closed.pure _
  · split
    · exact closed.pure _
    · exact closed.throw rfl

protected theorem searchItems {method : SearchMethod} {selector : Selector}
    (admitted : scope.admits method.picker selector) (item : ClassId) (field : Field)
    (items : List Json) : holds (method.loadItems item field selector items) := by
  induction items with
  | nil => exact closed.pure []
  | cons response rest inductionHypothesis =>
      refine closed.bind (closed.picker _ method.picker field response selector admitted)
        fun found => ?_
      split
      · exact closed.throw rfl
      · refine closed.bind (closed.ofExcept (unfazed_value _)) fun highlight => ?_
        exact closed.bind (closed.alloc _ _ _) fun _ =>
          closed.bind inductionHypothesis fun _ => closed.pure _

end ClosedUnderReading

namespace ClosedUnderCalling

variable (closed : ClosedUnderCalling scope holds)

include closed

protected theorem callOrFail (path : String) (params : Params) :
    holds (callOrFail path params) := by
  refine closed.bind (closed.call path params) fun reply => ?_
  cases reply with
  | ok response => exact closed.pure response
  | error failure => exact closed.throw rfl

protected theorem fetch {getter : Getter} {candidacy : Candidacy}
    (reads : scope.Reads getter.pickers candidacy.selector) : holds (getter.fetch candidacy) := by
  cases getter with
  | single method =>
      unfold Getter.fetch
      induction candidacy.ids with
      | nil => exact closed.pure []
      | cons id rest inductionHypothesis =>
          refine closed.bind ?_ fun outcome => closed.bind inductionHypothesis fun _ =>
            closed.pure _
          rw [method.fetch_eq]
          exact closed.bind (closed.ofExcept (unfazed_value _)) fun params =>
            closed.bind (closed.call method.path params) fun reply => closed.hear reads reply
  | batch method =>
      exact closed.bind (closed.ofExcept (unfazed_value _)) fun params =>
        closed.bind (closed.callOrFail method.path params) fun response =>
          closed.batch reads candidacy.ids response
  | table method => exact closed.bind (closed.callOrFail _ _) fun _ => closed.pure _

protected theorem listed {method : ListMethod} {selector : Selector}
    (reads : scope.Reads method.pickers.fields selector) : holds (method.execute selector) :=
  closed.bind (closed.callOrFail _ _) fun response =>
    closed.bind (closed.ofExcept (unfazed_walk method.path method.steps response)) fun items =>
      closed.loadEntities (fun item => closed.entity reads _ _ _ item) items

protected theorem searched {method : SearchMethod} {selector : Selector}
    (admitted : scope.admits method.picker selector) (query : String) :
    holds (method.execute query selector) := by
  refine closed.bind closed.schema fun schema => ?_
  refine closed.bind (closed.ofExcept (unfazed_itemField method schema)) fun opened => ?_
  refine closed.read fun context _ => ?_
  refine closed.bind (closed.callOrFail _ _) fun response => ?_
  split
  · exact closed.throw rfl
  · exact closed.searchItems admitted _ _ _

protected theorem currentUser {method : CurrentUserMethod} {selector : Selector}
    (reads : scope.Reads method.pickers.fields selector) : holds (method.load selector) := by
  refine closed.bind (closed.callOrFail _ _) fun response => ?_
  refine closed.bind (closed.entity reads _ _ _ response) fun user? => ?_
  cases user? with
  | none => exact closed.throw rfl
  | some user => exact closed.pure user

protected theorem find {prerequisite : Prerequisite}
    (finds : ∀ catalog, scope.covers catalog → scope.Finds catalog prerequisite) :
    holds prerequisite.find := by
  cases prerequisite with
  | list cls domain selector slot =>
      refine closed.read fun context covered => ?_
      split
      · exact closed.bind (closed.className cls) fun _ => closed.throw rfl
      · rename_i method offered
        exact closed.listed (finds context.catalog covered offered)
  | search cls query selector slot =>
      refine closed.read fun context covered => ?_
      split
      · exact closed.bind (closed.className cls) fun _ => closed.throw rfl
      · rename_i method offered
        exact closed.searched (finds context.catalog covered offered) query

end ClosedUnderCalling

namespace ClosedUnderBeginning

variable (closed : ClosedUnderBeginning scope holds)

include closed

protected theorem satisfyAll {prerequisites : List Prerequisite}
    (finds : ∀ prerequisite ∈ prerequisites, ∀ catalog, scope.covers catalog →
      scope.Finds catalog prerequisite) : holds (satisfyAll prerequisites) := by
  induction prerequisites with
  | nil => exact closed.pure ()
  | cons prerequisite rest inductionHypothesis =>
      refine closed.bind ?_ fun _ => inductionHypothesis fun other member =>
        finds other (List.mem_cons_of_mem _ member)
      rw [satisfy_eq]
      exact closed.bind (closed.find (finds prerequisite List.mem_cons_self)) fun entities =>
        closed.arrange RunState.prerequisites
          fun state => state.outputs.modify prerequisite.slot fun _ => entities

protected theorem place {demand : Demand} (places : scope.Places demand) : holds demand.place := by
  have want (prerequisite : Nat → Prerequisite) : holds (do
      let slot ← newSlot
      modify fun state =>
        { state with prerequisites := state.prerequisites ++ [prerequisite slot] }
      return slot) := by
    refine closed.bind ?_ fun slot => closed.bind ?_ fun _ => closed.pure slot
    · exact closed.bind closed.get fun _ => closed.bind
        (closed.arrange RunState.prerequisites fun state => state.outputs.push [])
        fun _ => closed.pure _
    · exact closed.arrange (fun state => state.prerequisites ++ [prerequisite slot])
        RunState.outputs
  cases demand with
  | entity cls id selector values isWeak =>
      exact closed.bind (closed.root cls id selector values isWeak) fun _ => closed.pure ()
  | list cls domain selector =>
      exact closed.bind (want (.list cls domain selector)) fun _ => closed.pure ()
  | search cls query selector =>
      exact closed.bind (want (.search cls query selector)) fun _ => closed.pure ()
  | currentUser method selector =>
      exact closed.bind (closed.currentUser places) fun _ => closed.pure ()

protected theorem placeAll {demands : List Demand}
    (places : ∀ demand ∈ demands, scope.Places demand) : holds (Demand.placeAll demands) := by
  induction demands with
  | nil => exact closed.pure ()
  | cons demand rest inductionHypothesis =>
      exact closed.bind (closed.place (places demand List.mem_cons_self)) fun _ =>
        inductionHypothesis fun other member => places other (List.mem_cons_of_mem _ member)

end ClosedUnderBeginning

end Run

end EntityResolver
