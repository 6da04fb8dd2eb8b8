import EntityResolver.Proofs.Checked
import EntityResolver.Proofs.Run.Extending
import Mathlib.Data.List.ReduceOption

/-!
What lists and searches find.

Of each document that is reached one entity is spawned, unless its id is null, and each item of a
search is put into the arena with the entity and the text that were read out of it.
-/

set_option autoImplicit false

namespace EntityResolver

namespace ListStep

/-- The documents that a step leads to from a value, in order. -/
def below : ListStep → Json → List Json
  | .key name, value => (value.member? name).toList
  | .each, .object members => members.map Prod.snd
  | .each, .array items => items
  | .each, _ => []

/-- The documents that steps lead to from a value, in order. -/
def reach : List ListStep → Json → List Json
  | [], value => [value]
  | step :: rest, value => (step.below value).flatMap (reach rest)

end ListStep

theorem walk_eq_reach {path : String} {steps : List ListStep} {value : Json}
    {documents : List Json} (walked : walk path steps value = .ok documents) :
    documents = ListStep.reach steps value := by
  induction steps generalizing value documents with
  | nil =>
      cases walked
      rfl
  | cons step rest inductionHypothesis =>
      have all {values : List Json} {documents : List Json}
          (walked : walk.walkAll (walk path rest) values = .ok documents) :
          documents = values.flatMap (ListStep.reach rest) := by
        induction values generalizing documents with
        | nil =>
            cases walked
            rfl
        | cons value others inductionHypothesisValues =>
            obtain ⟨found, first, walked⟩ := bind_eq_ok_iff.mp walked
            obtain ⟨more, remaining, same⟩ := bind_eq_ok_iff.mp walked
            cases same
            rw [List.flatMap_cons, ← inductionHypothesis first,
              ← inductionHypothesisValues remaining]
      rw [ListStep.reach]
      cases step with
      | key key =>
          rw [walk] at walked
          cases found : value.member? key with
          | none => simp [found] at walked
          | some inner =>
              rw [found] at walked
              simpa [ListStep.below, found] using inductionHypothesis walked
      | each =>
          cases value with
          | object members =>
              rw [walk] at walked
              exact all walked
          | array items =>
              rw [walk] at walked
              exact all walked
          | null =>
              rw [walk] at walked
              cases walked
              rfl
          | bool | int | float | str => simp [walk] at walked

/-- The entity was spawned with the class and the id, and must exist. -/
def RunState.Picks (state : RunState) (cls : ClassId) (id : String) (entity : Handle) : Prop :=
  ∃ origin ∈ state.origins,
    origin.entity = entity ∧ origin.cls = cls ∧ origin.id = id ∧ origin.isWeak = false

theorem RunState.Loses.picks {before after : RunState} {lost : Handle → Prop} {cls : ClassId}
    {id : String} {entity : Handle} (loses : Loses lost before after)
    (picks : before.Picks cls id entity) : after.Picks cls id entity := by
  obtain ⟨origin, member, spawned⟩ := picks
  exact ⟨origin, loses.origins member, spawned⟩

namespace Run

open RunState

variable {context : RunContext} {before middle after : RunState} {cls : ClassId}
variable {id? : Option String} {entity? : Option Handle} {loadField : LoadField}
variable {path : String} {id : IdSpec} {selector : Selector} {lost : Handle → Prop}

theorem picks_mono (loses : Loses lost before after)
    (picks : Option.Rel (before.Picks cls) id? entity?) :
    Option.Rel (after.Picks cls) id? entity? := by
  cases picks with
  | none => exact .none
  | some picks => exact .some (loses.picks picks)

theorem picks_of_spawn {id : String} {values : FieldValues} {entity : Handle}
    (done : Yields context (spawn cls id selector values false) before entity after) :
    after.Picks cls id entity := by
  obtain ⟨rfl, _, _, _, _, _, _, rfl⟩ := spawn_cases done
  exact ⟨_, List.mem_cons_self, rfl, rfl, rfl, rfl⟩

theorem picks_of_loadEntity {response : Json}
    (done : Yields context (loadEntity path id loadField cls response selector) before entity?
      after) :
    ∃ id?, id.load path response = .ok id? ∧ Option.Rel (after.Picks cls) id? entity? := by
  obtain ⟨id?, loaded, done⟩ := yields_ofExcept_bind_iff.mp done
  refine ⟨id?, loaded, ?_⟩
  cases id? with
  | none =>
      obtain ⟨rfl, rfl⟩ := yields_pure_iff.mp done
      exact .none
  | some id =>
      obtain ⟨values, _, _, done⟩ := yields_bind_iff.mp done
      obtain ⟨entity, _, spawned, done⟩ := yields_bind_iff.mp done
      obtain ⟨rfl, rfl⟩ := yields_pure_iff.mp done
      exact .some (picks_of_spawn spawned)

theorem picks_of_loadEntities {loadOne : Json → Run (Option Handle)}
    {idOf : Json → Except ResolveError (Option String)} {items : List Json}
    {entities : List Handle} (extending : ∀ item, Extending (loadOne item))
    (each : ∀ {item before entity? after}, Yields context (loadOne item) before entity? after →
      ∃ id?, idOf item = .ok id? ∧ Option.Rel (after.Picks cls) id? entity?)
    (done : Yields context (loadEntities loadOne items) before entities after) :
    ∃ ids, (items.filter fun item => !item.isNull).mapM idOf = .ok ids ∧
      List.Forall₂ (after.Picks cls) ids.reduceOption entities := by
  simp only [mapM_eq_ok_iff]
  induction items generalizing before entities with
  | nil =>
      obtain ⟨rfl, rfl⟩ := yields_pure_iff.mp done
      exact ⟨[], .nil, .nil⟩
  | cons item rest inductionHypothesis =>
      rw [loadEntities_cons] at done
      obtain ⟨entity?, middle, first, done⟩ := yields_bind_iff.mp done
      obtain ⟨others, ended, remaining, done⟩ := yields_bind_iff.mp done
      obtain ⟨rfl, rfl⟩ := yields_pure_iff.mp done
      obtain ⟨ids, loaded, picks⟩ := inductionHypothesis remaining
      rw [List.filter_cons]
      unfold loadPresent at first
      split at first
      · rename_i isNull
        obtain ⟨rfl, rfl⟩ := yields_pure_iff.mp first
        exact ⟨ids, by simpa [isNull] using loaded, picks⟩
      · rename_i isThere
        obtain ⟨id?, loadedFirst, picksFirst⟩ := each first
        have later := (closed_extending.loadEntities extending rest).yields remaining
        rw [if_pos (by simpa using isThere)]
        refine ⟨id? :: ids, .cons loadedFirst loaded, ?_⟩
        have picksLater := picks_mono later picksFirst
        cases picksLater with
        | none => exact picks
        | some picksLater => exact .cons picksLater picks

end Run

open Run RunState

variable {context : RunContext} {before after : RunState} {selector : Selector}

theorem ListMethod.picks_of_execute {method : ListMethod} {entities : List Handle}
    (done : Yields context (method.execute selector) before entities after) :
    ∃ response ids,
      context.remote before.calls ⟨method.path, method.params selector⟩ = .ok response ∧
      ((ListStep.reach method.steps response).filter fun document => !document.isNull).mapM
        (method.pickers.id.load method.path) = .ok ids ∧
      List.Forall₂ (after.Picks method.cls) ids.reduceOption entities := by
  obtain ⟨response, called, answered, done⟩ := yields_bind_iff.mp done
  obtain ⟨documents, walked, done⟩ := yields_ofExcept_bind_iff.mp done
  obtain ⟨ids, loaded, picks⟩ := picks_of_loadEntities
    (fun item => closed_extending.entity Scope.reads_everything _ _ _ item) picks_of_loadEntity done
  rw [walk_eq_reach walked] at loaded
  exact ⟨response, ids, (yields_callOrFail_iff.mp answered).1, loaded, picks⟩

/-- The documents that the entity of a response may be read from; the last one with an id counts. -/
def NestedShape.candidates (path key : String) (isRecursive : Bool) (value : Json) :
    NestedShape → Except ResolveError (List Json)
  | .single => .ok (if value.isNull then [] else [value])
  | .ancestors =>
      (itemsOf path key value).map fun items => if isRecursive then items else items.getLast?.toList
  | .list | .map => .ok []

namespace Run

variable {cls : ClassId} {loadField : LoadField} {plan : ListPlan} {response : Json}

@[simp] theorem asEntity?_oneEntity {ε : Type} (field : Field) (entity? : Option ε) :
    (oneEntity field entity?).asEntity? = entity? := by
  unfold oneEntity
  split <;> rfl

theorem picks_of_loadAncestors {nearest? : Option Handle} {nearestId? : Option String}
    {items : List Json} {entity? : Option Handle}
    (picks : Option.Rel (before.Picks plan.cls) nearestId? nearest?)
    (done : Yields context (loadAncestors plan loadField response nearest? items) before entity?
      after) :
    ∃ ids, (items.mapM fun item => plan.id.load plan.path (liftInto plan.lifts response item)) =
        .ok ids ∧
      Option.Rel (after.Picks plan.cls) (ids.reduceOption.getLast?.or nearestId?) entity? := by
  simp only [mapM_eq_ok_iff]
  induction items generalizing before nearest? nearestId? with
  | nil =>
      obtain ⟨rfl, rfl⟩ := yields_pure_iff.mp done
      exact ⟨[], .nil, picks⟩
  | cons item rest inductionHypothesis =>
      obtain ⟨id?, loaded, done⟩ := yields_ofExcept_bind_iff.mp done
      cases id? with
      | none =>
          obtain ⟨ids, loadedRest, picksRest⟩ := inductionHypothesis picks done
          exact ⟨none :: ids, .cons loaded loadedRest, picksRest⟩
      | some id =>
          obtain ⟨values, _, _, done⟩ := yields_bind_iff.mp done
          obtain ⟨entity, middle, spawned, done⟩ := yields_bind_iff.mp done
          obtain ⟨ids, loadedRest, picksRest⟩ :=
            inductionHypothesis (.some (picks_of_spawn spawned)) done
          refine ⟨some id :: ids, .cons loaded loadedRest, ?_⟩
          have last : (id :: ids.reduceOption).getLast?.or nearestId? =
              ids.reduceOption.getLast?.or (some id) := by
            rw [List.getLast?_cons]
            cases ids.reduceOption.getLast? <;> rfl
          rw [List.reduceOption_cons_of_some, last]
          exact picksRest

/-- The last id of the candidates of a nested entity, if one has an id. -/
def lastId (path : String) (id : IdSpec) (lifts : List (String × String)) (response : Json)
    (candidates : List Json) : Except ResolveError (Option String) := do
  let ids ← candidates.mapM fun item => id.load path (liftInto lifts response item)
  return ids.reduceOption.getLast?

theorem lastId_singleton (path : String) (id : IdSpec) (lifts : List (String × String))
    (response item : Json) :
    lastId path id lifts response [item] = id.load path (liftInto lifts response item) := by
  unfold lastId
  rw [List.mapM_cons]
  cases id.load path (liftInto lifts response item) with
  | error error => rfl
  | ok id? => cases id? <;> rfl

theorem picks_of_loadNested {shape : NestedShape} {value : Json} {found : FieldValue Handle}
    (single : shape = .single ∨ shape = .ancestors)
    (done : Yields context (loadNested shape plan loadField response value) before found after) :
    ∃ id?, (shape.candidates plan.path plan.key (plan.sub.isRecursive plan.field.name) value >>=
        lastId plan.path plan.id plan.lifts response) = .ok id? ∧
      Option.Rel (after.Picks plan.cls) id? found.asEntity? := by
  have one {item : Json} (done : Yields context (do
      return oneEntity plan.field (← loadEntity plan.path plan.id loadField plan.cls
        (liftInto plan.lifts response item) plan.sub)) before found after) :
      ∃ id?, lastId plan.path plan.id plan.lifts response [item] = .ok id? ∧
        Option.Rel (after.Picks plan.cls) id? found.asEntity? := by
    obtain ⟨entity?, _, loads, done⟩ := yields_bind_iff.mp done
    obtain ⟨rfl, rfl⟩ := yields_pure_iff.mp done
    rw [asEntity?_oneEntity, lastId_singleton]
    exact picks_of_loadEntity loads
  have nothing (done : Yields context (pure (oneEntity plan.field none)) before found after) :
      ∃ id?, lastId plan.path plan.id plan.lifts response [] = .ok id? ∧
        Option.Rel (after.Picks plan.cls) id? found.asEntity? := by
    obtain ⟨rfl, rfl⟩ := yields_pure_iff.mp done
    rw [asEntity?_oneEntity]
    exact ⟨none, rfl, .none⟩
  rcases single with rfl | rfl
  · simp only [loadNested] at done
    simp only [NestedShape.candidates, ok_bind]
    split at done
    · rename_i isNull
      rw [if_pos isNull]
      exact nothing done
    · rename_i isThere
      rw [if_neg isThere]
      exact one done
  · simp only [loadNested] at done
    obtain ⟨items, listed, done⟩ := yields_ofExcept_bind_iff.mp done
    simp only [NestedShape.candidates, listed, Except.map, ok_bind]
    split at done
    · rename_i isRecursive
      obtain ⟨entity?, _, loads, done⟩ := yields_bind_iff.mp done
      obtain ⟨rfl, rfl⟩ := yields_pure_iff.mp done
      rw [if_pos isRecursive, asEntity?_oneEntity]
      obtain ⟨ids, loaded, picks⟩ := picks_of_loadAncestors .none loads
      exact ⟨_, by rw [lastId, loaded]; rfl, by simpa using picks⟩
    · rename_i isPlain
      rw [if_neg isPlain]
      cases last : items.getLast? with
      | none =>
          rw [last] at done
          exact nothing done
      | some item =>
          rw [last] at done
          exact one done

end Run

/-- The id of the entity that a picker reads out of a response. -/
def Picker.pickedId (path : String) (field : Field) (sub : Selector) :
    Picker → Json → Except ResolveError (Option String)
  | .reference id, response | .inline id _, response => id.load path response
  | .nested shape key id _ _ lifts _, response =>
      match response.member? key with
      | none => (missingKey path field key).map fun _ => none
      | some value =>
          shape.candidates path key (sub.isRecursive field.name) value >>=
            lastId path id lifts response
  | _, _ => .ok none

theorem Picker.picks_of_load {picker : Picker} {path : String} {field : Field} {cls : ClassId}
    {response : Json} {sub : Selector} {found : FieldValue Handle}
    (single : field.kind = .entity cls) (fits : picker.fits field.kind = true)
    (done : Yields context (picker.load path field response sub) before found after) :
    ∃ id?, picker.pickedId path field sub response = .ok id? ∧
      Option.Rel (after.Picks cls) id? found.asEntity? := by
  have isCls {other : ClassId} (same : field.target path = .ok other) : other = cls := by
    rw [Field.target, single] at same
    exact (Except.ok.inj same).symm
  cases picker with
  | scalar _ _ | referenceList _ | referenceMap _ _ | inlineList _ _ =>
      rw [single] at fits
      cases fits
  | reference id =>
      obtain ⟨other, known, done⟩ := yields_ofExcept_bind_iff.mp done
      cases isCls known
      obtain ⟨id?, loaded, done⟩ := yields_ofExcept_bind_iff.mp done
      refine ⟨id?, loaded, ?_⟩
      cases id? with
      | none =>
          obtain ⟨rfl, rfl⟩ := yields_pure_iff.mp done
          rw [asEntity?_oneEntity]
          exact .none
      | some id =>
          obtain ⟨entity, _, spawned, done⟩ := yields_bind_iff.mp done
          obtain ⟨rfl, rfl⟩ := yields_pure_iff.mp done
          rw [asEntity?_oneEntity]
          exact .some (picks_of_spawn spawned)
  | inline id fields =>
      obtain ⟨other, known, done⟩ := yields_ofExcept_bind_iff.mp done
      cases isCls known
      obtain ⟨entity?, _, loads, done⟩ := yields_bind_iff.mp done
      obtain ⟨rfl, rfl⟩ := yields_pure_iff.mp done
      rw [asEntity?_oneEntity]
      exact picks_of_loadEntity loads
  | nested shape key id fields hasSubfields lifts unique =>
      rw [Picker.load, withKey] at done
      rw [pickedId]
      cases member : response.member? key with
      | none =>
          rw [member] at done
          obtain ⟨known, rfl⟩ := yields_ofExcept_iff.mp done
          refine ⟨none, by simp [known, Except.map], ?_⟩
          unfold missingKey at known
          split at known
          · cases known
            exact .none
          · cases known
      | some value =>
          rw [member] at done
          obtain ⟨other, known, done⟩ := yields_ofExcept_bind_iff.mp done
          cases isCls known
          refine picks_of_loadNested ?_ done
          rw [single] at fits
          cases shape with
          | single => exact .inl rfl
          | ancestors => exact .inr rfl
          | list | map => cases fits

/-- What an item of a search holds: the id of the entity found, if it is not null, and the text that
matched. -/
def SearchMethod.read (method : SearchMethod) (field : Field) (selector : Selector) (item : Json) :
    Except ResolveError (Option String × MatchText) := do
  let id? ← method.picker.pickedId method.path field selector item
  match (item.member? matchField).bind Json.asText? with
  | none => .error (.malformed method.path .noSearchMatch)
  | some html => return (id?, ← liftError .value (readMatchText html))

/-- The entity is an item of a search for entities of the class and holds what was read. -/
def RunState.HoldsItem (state : RunState) (cls : ClassId) (field : Field)
    (read : Option String × MatchText) (entity : Handle) : Prop :=
  ∃ item found, state.record? entity = some ⟨item, some "", OrderedMap.ofEntries
      [(field.name, found), (matchField, .scalar (.matchText read.2))]⟩ ∧
    state.Shelved entity ∧ Option.Rel (state.Picks cls) read.1 found.asEntity?

variable {cls : ClassId} {field : Field} {reads : List (Option String × MatchText)}
variable {method : SearchMethod} {handles : List Handle} {lost : Handle → Prop}

theorem RunState.Loses.holdsItem {read : Option String × MatchText} {entity : Handle}
    (loses : Loses lost before after) (holds : before.HoldsItem cls field read entity) :
    after.HoldsItem cls field read entity := by
  obtain ⟨item, found, record, shelved, picks⟩ := holds
  obtain ⟨recordToo, shelvedToo⟩ := loses.shelved record shelved
  exact ⟨item, found, recordToo, shelvedToo, picks_mono loses picks⟩

namespace SearchMethod

theorem holds_of_loadItems {item : ClassId} {items : List Json} (single : field.kind = .entity cls)
    (fits : method.picker.fits field.kind = true) (housed : before.Housed)
    (done : Yields context (method.loadItems item field selector items) before handles after) :
    ∃ reads, items.mapM (method.read field selector) = .ok reads ∧
      List.Forall₂ (after.HoldsItem cls field) reads handles := by
  simp only [mapM_eq_ok_iff]
  induction items generalizing before handles with
  | nil =>
      obtain ⟨rfl, rfl⟩ := yields_pure_iff.mp done
      exact ⟨[], .nil, .nil⟩
  | cons response rest inductionHypothesis =>
      obtain ⟨found, picked, loads, done⟩ := yields_bind_iff.mp done
      obtain ⟨id?, readId, picks⟩ := method.picker.picks_of_load single fits loads
      split at done
      · exact absurd done not_yields_throw
      · rename_i html hasMatch
        obtain ⟨highlight, readText, done⟩ := yields_ofExcept_bind_iff.mp done
        obtain ⟨handle, middle, allocated, done⟩ := yields_bind_iff.mp done
        obtain ⟨others, _, remaining, done⟩ := yields_bind_iff.mp done
        obtain ⟨rfl, rfl⟩ := yields_pure_iff.mp done
        have housedPicked :=
          ((closed_extending.picker _ method.picker _ _ _ trivial).yields loads).housed housed
        have extended := (closed_extending.alloc item (some "") _).yields allocated
        obtain ⟨reads, readRest, holds⟩ :=
          inductionHypothesis (extended.housed housedPicked) remaining
        have later := (closed_extending.searchItems trivial item field rest).yields remaining
        have mine : middle.HoldsItem cls field (id?, highlight) handle := by
          refine ⟨item, found, ?_, ?_, picks_mono extended picks⟩
          · obtain ⟨rfl, rfl⟩ := yields_alloc_iff.mp allocated
            rw [record_allocated, if_pos rfl]
          · obtain ⟨rfl, rfl⟩ := yields_alloc_iff.mp allocated
            intro origin member same
            have inside := housedPicked origin member
            rw [same] at inside
            exact Nat.lt_irrefl _ inside
        refine ⟨(id?, highlight) :: reads, .cons ?_ readRest, .cons (later.holdsItem mine) holds⟩
        simp only [SearchMethod.read, readId, hasMatch, readText, ok_bind]
        rfl

theorem holds_of_execute {query : String} {item : ClassId}
    (opened : method.itemField context.catalog.schema = .ok (item, field))
    (single : field.kind = .entity cls) (fits : method.picker.fits field.kind = true)
    (housed : before.Housed)
    (done : Yields context (method.execute query selector) before handles after) :
    ∃ response items reads,
      context.remote before.calls
        ⟨method.path, method.params query context.lang.code selector⟩ = .ok response ∧
      (response.member? "items").bind Json.asItems? = some items ∧
      items.mapM (method.read field selector) = .ok reads ∧
      List.Forall₂ (after.HoldsItem cls field) reads handles := by
  obtain ⟨_, _, known, opens⟩ := yields_bind_iff.mp done
  obtain ⟨rfl, rfl⟩ := yields_schema_iff.mp known
  obtain ⟨⟨itemToo, fieldToo⟩, openedToo, reads⟩ := yields_ofExcept_bind_iff.mp opens
  cases opened.symm.trans openedToo
  obtain ⟨given, _, known, calls⟩ := yields_bind_iff.mp reads
  obtain ⟨same, rfl⟩ := yields_read_iff.mp known
  subst same
  obtain ⟨response, called, answered, loads⟩ := yields_bind_iff.mp calls
  have housedCalled := ((closed_extending.callOrFail _ _).yields answered).housed housed
  split at loads
  · exact absurd loads not_yields_throw
  · rename_i items listed
    obtain ⟨reads, read, holds⟩ := holds_of_loadItems single fits housedCalled loads
    exact ⟨response, items, reads, (yields_callOrFail_iff.mp answered).1, listed, read, holds⟩

end SearchMethod

end EntityResolver
