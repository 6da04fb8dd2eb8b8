import EntityResolver.Proofs.Registration
import EntityResolver.Proofs.Run.Findings
import EntityResolver.Proofs.Run.Requests
import Mathlib

/-!
# Lists and searches lose nothing

A request for a list gives one entity for each document that the path of the list reaches, and a
request for a search gives one result for each item. Both keep the order of the response, leave out
what has no id, and give nothing else, whatever the rounds of the run do to the entities.
-/

set_option autoImplicit false

namespace EntityResolver

namespace Run

open RunState

variable {context : RunContext} {before after : RunState} {cls : ClassId} {selector : Selector}

def wantSlot (wanted : Nat → Prerequisite) : Run Nat := do
  let slot ← newSlot
  modify fun state => { state with prerequisites := state.prerequisites ++ [wanted slot] }
  return slot

/-- The state of a run that has made no calls and waits for one slot to be filled. -/
def slotted (earlier : List Call) : RunState :=
  { calls := earlier, outputs := #[[]] }

theorem yields_wantSlot_iff {wanted : Nat → Prerequisite} {slot : Nat} {earlier : List Call} :
    Yields context (wantSlot wanted) { calls := earlier } slot after ↔
      slot = 0 ∧ after = { slotted earlier with prerequisites := [wanted 0] } := by
  simp only [wantSlot, yields_bind_iff, yields_newSlot_iff, yields_modify_iff, yields_pure_iff]
  constructor
  · rintro ⟨_, _, ⟨rfl, rfl⟩, _, _, rfl, rfl, rfl⟩
    exact ⟨rfl, rfl⟩
  · rintro ⟨rfl, rfl⟩
    exact ⟨_, _, ⟨rfl, rfl⟩, ⟨⟩, _, rfl, rfl, rfl⟩

theorem yields_outputTrees_iff {slot : Nat} {trees : List Entity} :
    Yields context (Session.outputTrees slot) before trees after ↔
      trees = ((before.outputs[slot]?).getD []).map
        (before.materialize context.catalog.schema) ∧
      after = { before with outputs := before.outputs.modify slot fun _ => [] } := by
  have congr (handles : List Handle) : handles.map (RunState.materialize context.catalog.schema
        { before with outputs := before.outputs.modify slot fun _ => [] }) =
      handles.map (before.materialize context.catalog.schema) :=
    List.map_congr_left fun handle _ => materialize_congr handle rfl
  simp only [Session.outputTrees, takeOutput, yields_bind_iff, yields_get_iff, yields_modify_iff,
    yields_pure_iff, yields_trees_iff]
  constructor
  · rintro ⟨_, _, ⟨_, _, ⟨rfl, rfl⟩, _, _, rfl, rfl, rfl⟩, rfl, rfl⟩
    exact ⟨congr _, rfl⟩
  · rintro ⟨rfl, rfl⟩
    exact ⟨_, _, ⟨_, _, ⟨rfl, rfl⟩, ⟨⟩, _, rfl, rfl, rfl⟩, (congr _).symm, rfl⟩

/-- The end of a run is as good as what was found before its first round: nothing that was put into
the slot is lost, and all that is known is sound. -/
theorem exists_final_of_slot (wanted : Nat → Prerequisite) (demand : Demand) {limit : Nat}
    {earlier : List Call} {trees : List Entity} (slot : (wanted 0).slot = 0)
    (place : demand.place = (do let _ ← wantSlot wanted)) (distinct : demand.selector.Distinct)
    (valueless : demand.values = [])
    (done : Yields context (Session.stepsWithin limit (wantSlot wanted) Session.outputTrees)
      { calls := earlier } trees after) :
    ∃ handles found lost final, Yields context (wanted 0).find (slotted earlier) handles found ∧
      Loses lost { found with outputs := #[handles] } final ∧
      Sound (.trivial context.catalog.schema) [] final ∧
      trees = handles.map (final.materialize context.catalog.schema) := by
  obtain ⟨_, placed, ready, final, wants, prepared, rounds, finished⟩ :=
    yields_stepsWithin_iff.mp done
  obtain ⟨rfl, rfl⟩ := yields_wantSlot_iff.mp wants
  have places : Yields context demand.place { calls := earlier } ()
      { slotted earlier with prerequisites := [wanted 0] } :=
    place ▸ yields_bind_iff.mpr ⟨0, _, wants, yields_pure_iff.mpr ⟨rfl, rfl⟩⟩
  have begun :
      Yields context (do Demand.placeAll [demand]; prepare) { calls := earlier } () ready :=
    yields_bind_iff.mpr ⟨⟨⟩, _, yields_bind_iff.mpr
      ⟨⟨⟩, _, places, yields_pure_iff.mpr ⟨rfl, rfl⟩⟩, prepared⟩
  have steady := steady_of_begun (by simpa using ⟨distinct, valueless⟩) begun
  obtain ⟨passes, empty⟩ := passes_of_rounds rounds
  have faithful := faithful_trivial context
  have sound : Sound (.trivial context.catalog.schema) [] final := by
    have whole := (Passes.steady faithful steady passes).1.sound
    rwa [RunState.pooled, empty rfl] at whole
  obtain ⟨lost, loses, _⟩ := Passes.loses faithful steady passes
  obtain ⟨satisfied, satisfies, rfl⟩ := yields_prepare_iff.mp prepared
  obtain ⟨_, _, first, nothing⟩ := yields_bind_iff.mp satisfies
  obtain ⟨_, rfl⟩ := yields_pure_iff.mp nothing
  rw [satisfy_eq, slot] at first
  obtain ⟨handles, found, finds, fills⟩ := yields_bind_iff.mp first
  cases yields_modify_iff.mp fills
  have outputs : found.outputs.modify 0 (fun _ => handles) = #[handles] := by
    rw [((closed_extending.find fun _ _ => Scope.finds_everything _ (wanted 0)).yields finds).outputs]
    rfl
  have losesFound : Loses lost { found with outputs := #[handles] } final :=
    loses.reframe rfl rfl outputs.symm (List.nil_subset _) rfl rfl rfl (List.Subset.refl _)
  obtain ⟨rfl, _⟩ := yields_outputTrees_iff.mp finished
  refine ⟨handles, found, lost, final, finds, losesFound, sound, ?_⟩
  have filled : final.outputs = #[handles] := losesFound.outputs
  simp only [filled]
  exact List.map_congr_left fun handle _ => materialize_congr handle rfl

variable {state : RunState} {truth : Truth context.catalog.schema}

/-- What a picker has spawned keeps its id to the end. -/
theorem record_of_picks {id : String} {entity : Handle} (sound : Sound truth [] state)
    (picks : state.Picks cls id entity) :
    ∃ values, state.record? entity = some ⟨cls, some id, values⟩ := by
  obtain ⟨origin, member, rfl, rfl, rfl, isStrong⟩ := picks
  rcases sound.fates origin member with ⟨_, inNone, _⟩ | settled
  · cases inNone
  · cases settled with
    | met holds => exact ⟨_, holds.record⟩
    | gone isWeak => simp [isWeak] at isStrong

def Bears (cls : ClassId) (id : String) (entity : Entity) : Prop :=
  entity.cls = cls ∧ entity.id = some id

theorem bears_of_picks {id : String} {entity : Handle} (schema : Schema) (depth : Nat)
    (sound : Sound truth [] state) (picks : state.Picks cls id entity) :
    Bears cls id (state.tree schema depth entity) := by
  obtain ⟨values, found⟩ := record_of_picks sound picks
  obtain ⟨sameClass, _, sameId⟩ := tree_of_record schema found depth
  exact ⟨sameClass, sameId⟩

theorem map_of_bears {ids : List String} {entities : List Entity}
    (bears : List.Forall₂ (Bears cls) ids entities) :
    entities.map (fun entity => (entity.cls, entity.id)) = ids.map fun id => (cls, some id) := by
  induction bears with
  | nil => rfl
  | cons first _ inductionHypothesis =>
      rw [List.map_cons, List.map_cons, inductionHypothesis, first.1, first.2]

theorem bears_map_of_picks {id? : Option String} {entity? : Option Handle} (schema : Schema)
    (depth : Nat) (sound : Sound truth [] state)
    (picks : Option.Rel (state.Picks cls) id? entity?) :
    Option.Rel (Bears cls) id? (entity?.map (state.tree schema depth)) := by
  cases picks with
  | none => exact .none
  | some picks => exact .some (bears_of_picks schema depth sound picks)

theorem asEntity?_mapEntities {ε τ : Type} (grow : ε → τ) (value : FieldValue ε) :
    (value.mapEntities grow).asEntity? = value.asEntity?.map grow := by
  cases value <;> rfl

structure Shows (cls : ClassId) (field : Field) (read : Option String × MatchText) (item : Entity) :
    Prop where
  found : ∃ value, item.get field.name = .ok value ∧
    Option.Rel (Bears cls) read.1 value.asEntity?
  highlight : item.get matchField = .ok (.scalar (.matchText read.2))

theorem shows_of_holds {field : Field} {read : Option String × MatchText} {entity : Handle}
    (schema : Schema) (apart : field.name ≠ matchField) (sound : Sound truth [] state)
    (holds : state.HoldsItem cls field read entity) :
    Shows cls field read (state.materialize schema entity) := by
  obtain ⟨item, found, record, _, picks⟩ := holds
  obtain ⟨depth, fields⟩ := exists_fields schema record
  have entries : OrderedMap.ofEntries
      [(field.name, found), (matchField, FieldValue.scalar (.matchText read.2))] =
        [(field.name, found), (matchField, .scalar (.matchText read.2))] := by
    simp [OrderedMap.ofEntries, OrderedMap.extend, OrderedMap.set, apart]
  rw [entries] at fields
  refine ⟨⟨found.mapEntities (state.tree schema depth), ?_, ?_⟩, ?_⟩
  · simp [Entity.get, fields, OrderedMap.get?]
  · rw [asEntity?_mapEntities]
    exact bears_map_of_picks schema depth sound picks
  · simp [Entity.get, fields, OrderedMap.get?, apart, FieldValue.mapEntities]

theorem results_of_shows {field : Field} {reads : List (Option String × MatchText)}
    {items : List Entity} {results : List SearchResult}
    (shows_ : List.Forall₂ (Shows cls field) reads items)
    (done : Session.resultsOf field.name items = .ok results) :
    results.map (fun result => (result.entity.cls, result.entity.id, result.highlight)) =
      reads.filterMap fun read => read.1.map fun id => (cls, some id, read.2) := by
  induction shows_ generalizing results with
  | nil =>
      cases done
      rfl
  | @cons read item reads items shown _ inductionHypothesis =>
      obtain ⟨id?, text⟩ := read
      obtain ⟨value, gotten, bears⟩ : ∃ value, item.get field.name = .ok value ∧
        Option.Rel (Bears cls) id? value.asEntity? := shown.found
      simp only [Session.resultsOf, gotten, shown.highlight, liftError, ok_bind] at done
      obtain ⟨others, remaining, same⟩ := bind_eq_ok_iff.mp done
      have rest := inductionHypothesis remaining
      generalize value.asEntity? = entity? at bears same
      cases bears with
      | none =>
          cases same
          exact rest
      | some bears =>
          cases same
          obtain ⟨sameClass, sameId⟩ := bears
          simp only [List.map_cons, rest, sameClass, sameId]
          rfl

end Run

theorem SearchMethod.foundField_of_itemField {method : SearchMethod} {schema : Schema}
    {item : ClassId} {field : Field} (opened : method.itemField schema = .ok (item, field)) :
    ∃ companion,
      ((schema.class? method.cls).bind EntityClass.searchItem).bind schema.class? =
        some companion ∧ companion.foundField = some field.name := by
  unfold itemField at opened
  split at opened
  · cases opened
  · rename_i inner searched
    split at opened
    · rename_i found
      cases opened
      obtain ⟨companion, known, finds⟩ := Option.bind_eq_some_iff.mp found
      obtain ⟨name, named, foundToo⟩ := Option.bind_eq_some_iff.mp finds
      obtain rfl := Selector.EntityClass.name_of_field? foundToo
      exact ⟨companion, by rw [searched, Option.bind_some, known], named⟩
    · cases opened

namespace Session

open Run

variable {session : Session} {cls : ClassId} {selector : Selector}
variable {earlier after : SessionState}

theorem exists_ids_of_listWith {domain : String} {entities : List Entity}
    (distinct : selector.Distinct)
    (done : session.listWith cls domain selector earlier = .ok entities after) :
    ∃ method response ids, session.catalog.listMethod? cls domain = some method ∧
      session.remote earlier.calls ⟨method.path, method.params selector⟩ = .ok response ∧
      ((ListStep.reach method.steps response).filter fun document => !document.isNull).mapM
        (method.pickers.id.load method.path) = .ok ids ∧
      entities.map (fun entity => (entity.cls, entity.id)) =
        ids.reduceOption.map fun id => (cls, some id) := by
  obtain ⟨ended, runs, rfl⟩ := run_eq_ok_iff.mp done
  obtain ⟨handles, found, lost, final, finds, loses, sound, rfl⟩ := exists_final_of_slot
    (.list cls domain selector) (.list cls domain selector) rfl rfl distinct rfl runs
  obtain ⟨method, known, executes⟩ := yields_find_list finds
  obtain ⟨response, ids, answered, loaded, picks⟩ := method.picks_of_execute executes
  have matching := List.find?_some known
  simp only [Bool.and_eq_true, beq_iff_eq] at matching
  refine ⟨method, response, ids, known, answered, loaded, ?_⟩
  apply map_of_bears
  refine List.forall₂_map_right_iff.mpr (picks.imp fun id handle pick => ?_)
  exact matching.1 ▸ bears_of_picks _ _ sound (loses.picks pick)

/-- A search gives one result for each item whose entity is not null, in order. -/
theorem exists_reads_of_searchWith {naming : String → String} {declared : List ClassDecl}
    {query : String} {results : List SearchResult}
    (builds : session.catalog.schema.Builds naming declared) (checked : session.catalog.Checked)
    (distinct : selector.Distinct)
    (done : session.searchWith cls query selector earlier = .ok results after) :
    ∃ method item field response items reads,
      session.catalog.searchMethod? cls = some method ∧
      method.itemField session.catalog.schema = .ok (item, field) ∧
      session.remote earlier.calls
        ⟨method.path, method.params query session.lang.code selector⟩ = .ok response ∧
      (response.member? "items").bind Json.asItems? = some items ∧
      items.mapM (method.read field selector) = .ok reads ∧
      results.map (fun result => (result.entity.cls, result.entity.id, result.highlight)) =
        reads.filterMap fun read => read.1.map fun id => (cls, some id, read.2) := by
  unfold searchWith at done
  cases outcome : session.run (wantSearch cls query selector) outputTrees earlier with
  | error error middle => simp [bind, EStateM.bind, outcome] at done
  | ok trees middle =>
      obtain ⟨ended, runs, rfl⟩ := run_eq_ok_iff.mp outcome
      obtain ⟨handles, found, lost, final, finds, loses, sound, rfl⟩ := exists_final_of_slot
        (.search cls query selector) (.search cls query selector) rfl rfl distinct rfl runs
      obtain ⟨method, known, executes⟩ := yields_find_search finds
      have ofClass : method.cls = cls := by simpa using List.find?_some known
      obtain ⟨item, field, opened, passed⟩ :=
        checked.search_reads (List.mem_of_find?_eq_some known)
      obtain ⟨knownField, single, text, knownText, textual⟩ :=
        SearchMethod.fields_of_itemField builds opened
      have apart : field.name ≠ matchField := by
        intro same
        rw [same, knownText] at knownField
        cases knownField
        rw [single] at textual
        cases textual
      have nothing : (slotted earlier.calls).Housed := by simp [slotted, RunState.Housed]
      obtain ⟨response, items, reads, answered, listed, read, holds⟩ :=
        SearchMethod.holds_of_execute opened single (Picker.fits_of_check passed) nothing executes
      refine ⟨method, item, field, response, items, reads, known, opened, answered, listed, read,
        ?_⟩
      obtain ⟨companion, companions, named⟩ := SearchMethod.foundField_of_itemField opened
      rw [ofClass] at companions holds single
      have items : List.Forall₂ (Shows cls field) reads
          (handles.map (final.materialize session.context.catalog.schema)) :=
        List.forall₂_map_right_iff.mpr (holds.imp fun _ _ held =>
          shows_of_holds _ apart sound (loses.holdsItem held))
      apply results_of_shows items
      simp only [bind, EStateM.bind, outcome, companions, named, Option.getD_some] at done
      generalize resultsOf field.name
        (handles.map (final.materialize session.context.catalog.schema)) = made at done ⊢
      cases made with
      | error error => cases done
      | ok made =>
          cases done
          rfl

/-- Lists and searches with registered methods lose, invent and reorder nothing, and what they find
exists. -/
theorem lists_and_searches_keep_order (session : Session) {naming : String → String}
    {declared : List ClassDecl} {registrations : List Registration} {schema : Schema}
    (built : Schema.ofDeclsNaming naming declared = .ok schema)
    (accepted : Catalog.ofRegistrations schema registrations = .ok session.catalog)
    (cls : ClassId) (selector : Selector) (distinct : selector.Distinct)
    (earlier : SessionState) :
    (∀ domain entities after, session.listWith cls domain selector earlier = .ok entities after →
      (∃ method response ids, session.catalog.listMethod? cls domain = some method ∧
        session.remote earlier.calls ⟨method.path, method.params selector⟩ = .ok response ∧
        ((ListStep.reach method.steps response).filter fun document => !document.isNull).mapM
          (method.pickers.id.load method.path) = .ok ids ∧
        entities.map (fun entity => (entity.cls, entity.id)) =
          ids.reduceOption.map fun id => (cls, some id)) ∧
      ∀ entity ∈ entities, entity.isPresent = true) ∧
    ∀ query results after, session.searchWith cls query selector earlier = .ok results after →
      (∃ method item field response items reads,
        session.catalog.searchMethod? cls = some method ∧
        method.itemField session.catalog.schema = .ok (item, field) ∧
        session.remote earlier.calls
          ⟨method.path, method.params query session.lang.code selector⟩ = .ok response ∧
        (response.member? "items").bind Json.asItems? = some items ∧
        items.mapM (method.read field selector) = .ok reads ∧
        results.map (fun result => (result.entity.cls, result.entity.id, result.highlight)) =
          reads.filterMap fun read => read.1.map fun id => (cls, some id, read.2)) ∧
      ∀ result ∈ results, result.entity.isPresent = true := by
  obtain ⟨rfl, checked, _⟩ := Catalog.checked_of_ofRegistrations accepted
  refine ⟨fun domain entities after done => ?_, fun query results after done => ?_⟩
  · obtain ⟨method, response, ids, known, answered, loaded, same⟩ :=
      exists_ids_of_listWith distinct done
    refine ⟨⟨method, response, ids, known, answered, loaded, same⟩, fun entity member => ?_⟩
    have listed := same ▸ List.mem_map_of_mem member
    obtain ⟨id, _, alike⟩ := List.mem_map.mp listed
    rw [Entity.isPresent, ← (Prod.mk.inj alike).2]
    rfl
  · obtain ⟨method, item, field, response, items, reads, known, opened, answered, listed, read,
      same⟩ := exists_reads_of_searchWith (Schema.builds_of_ofDeclsNaming built) checked distinct done
    refine ⟨⟨method, item, field, response, items, reads, known, opened, answered, listed, read,
      same⟩, fun result member => ?_⟩
    have shown := same ▸ List.mem_map_of_mem member
    obtain ⟨⟨id?, text⟩, _, alike⟩ := List.mem_filterMap.mp shown
    obtain ⟨id, _, pair⟩ := Option.map_eq_some_iff.mp alike
    rw [Entity.isPresent, ← (Prod.mk.inj (Prod.mk.inj pair).2).1]
    rfl

end Session

namespace Poems

def cls : ClassId := ⟨0⟩

/-- Poems can be listed and searched. Some are listed without id, and some items of a search hold
none. -/
def decls : List ClassDecl :=
  [{ name := "Poem"
     fields := [{ name := "title", kind := .scalar .string }]
     isSearchable := true }]

def poem : EntityClass :=
  { id := cls
    name := "Poem"
    fields := [⟨"title", cls, .scalar .string, false, false⟩]
    searchItem := some ⟨1⟩
    foundField := none
    defaultSelector := .empty }

def item : EntityClass :=
  { id := ⟨1⟩
    name := "PoemSearchItem"
    fields := [⟨"poem", ⟨1⟩, .entity cls, false, false⟩,
      ⟨"match", ⟨1⟩, .scalar .matchText, false, false⟩]
    searchItem := none
    foundField := some "poem"
    defaultSelector := .empty }

def schema : Schema := ⟨[poem, item]⟩

def titles : FieldPickers := .field "title" (.scalar .raw "title") .none

def lister : ListMethod :=
  { domain := "all"
    path := "poems/all"
    cls := cls
    pickers := ⟨.elementary "id", titles⟩
    steps := [.key "poems", .each]
    sendsFields := false }

def searcher : SearchMethod :=
  { path := "poems/search"
    cls := cls
    picker := .nested .single "poem" (.elementary "id") titles false [] false
    fieldsMode := .absent }

def record (id : Json) (title : String) : Json := .object [("id", id), ("title", .str title)]

def listed : Json :=
  .object [("poems", .array [record (.str "1") "Ode", .null, record .null "?",
    record (.str "2") "Elegy"])]

def found : Json :=
  .object [("items", .array [.object [("poem", .null), ("match", .str "Ballad")],
    .object [("poem", record (.str "2") "Elegy"), ("match", .str "<b>El</b>egy")]])]

def session : Session where
  catalog := { Catalog.empty schema with lists := [lister], searches := [searcher] }
  remote := fun _ call => .ok (if call.path = lister.path then listed else found)
  roundLimit := 1

theorem accepted : Schema.ofDecls decls = .ok schema ∧
    Catalog.ofRegistrations schema [.list lister, .search searcher] = .ok session.catalog :=
  ⟨rfl, rfl⟩

def titled : Selector := .nested "title" .empty .empty

def elegy : Entity := ⟨cls, "Poem", some "2", [("title", .scalar (.str "Elegy"))]⟩

def calledLister : SessionState where
  calls := [⟨"poems/all", []⟩]
  lastRun := { remoteCalls := 1 }

def calledSearcher : SessionState where
  calls := [⟨"poems/search", [("lang", "pl"), ("query", "e"), ("num", "20")]⟩]
  lastRun := { remoteCalls := 1 }

/-- The null among the documents and the poem without id are left out of the list. -/
theorem lists : session.listWith cls "all" titled {} =
    .ok [⟨cls, "Poem", some "1", [("title", .scalar (.str "Ode"))]⟩, elegy] calledLister := by
  rfl

/-- The item without a poem takes its match along: the other match stays with its poem. -/
theorem searches : session.searchWith cls "e" titled {} =
    .ok [⟨elegy, [⟨"El", true⟩, ⟨"egy", false⟩]⟩] calledSearcher := by
  cbv

theorem lists_and_searches_keep_order_poems :
    (∃ method response ids, session.catalog.listMethod? cls "all" = some method ∧
      session.remote [] ⟨method.path, method.params titled⟩ = .ok response ∧
      ((ListStep.reach method.steps response).filter fun document => !document.isNull).mapM
        (method.pickers.id.load method.path) = .ok ids ∧
      [(cls, some "1"), (cls, some "2")] = ids.reduceOption.map fun id => (cls, some id)) ∧
    ∃ method item field response items reads,
      session.catalog.searchMethod? cls = some method ∧
      method.itemField session.catalog.schema = .ok (item, field) ∧
      session.remote [] ⟨method.path, method.params "e" session.lang.code titled⟩ = .ok response ∧
      (response.member? "items").bind Json.asItems? = some items ∧
      items.mapM (method.read field titled) = .ok reads ∧
      [(cls, some "2", [⟨"El", true⟩, ⟨"egy", false⟩])] =
        reads.filterMap fun read => read.1.map fun id => (cls, some id, read.2) :=
  have kept := Session.lists_and_searches_keep_order session accepted.1 accepted.2 cls titled
    (by simp [titled, Selector.Distinct, Selector.names]) {}
  ⟨(kept.1 _ _ _ lists).1, (kept.2 _ _ _ searches).1⟩

end Poems

end EntityResolver
