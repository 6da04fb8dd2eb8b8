import EntityResolver.Proofs.Run.Reading
import EntityResolver.Proofs.Selector.Entries

/-!
What getters, lists, searches and the call of the current user do to a run.

They make calls and read the responses, so a discipline of spawning holds of them too.
-/

set_option autoImplicit false

namespace EntityResolver

/-- The getter spawns entities by id alone, without values for them. -/
def Getter.isDirect : Getter → Bool
  | .single method => method.pickers.areDirect
  | .batch method => method.pickers.areDirect
  | .table _ => true

namespace Run.Discipline

variable {context : RunContext} {discipline : Discipline context}
variable {before middle after : RunState} {cls : ClassId} {sub selector : Selector}

/-- The values found belong to selected fields, and their entities suit these. -/
def Delivered (discipline : Discipline context) (state : RunState) (cls : ClassId)
    (selector : Selector) (results : FetchResults) : Prop :=
  ∀ id values, (id, FetchOutcome.found values) ∈ results →
    Brought (discipline.Suits state cls) selector.resolved values

def Fetches (discipline : Discipline context) (cls : ClassId) (selector : Selector)
    (step : Run FetchResults) : Prop :=
  ∀ ⦃before⦄, discipline.invariant before →
    discipline.Ensures before step fun results after =>
      discipline.Delivered after cls selector results

theorem delivered_nil (state : RunState) : discipline.Delivered state cls selector [] :=
  fun _ _ member => absurd member List.not_mem_nil

theorem Delivered.cons_found {id : String} {values : FieldValues} {results : FetchResults}
    (later : discipline.leads before after)
    (brought : Brought (discipline.Suits before cls) selector.resolved values)
    (others : discipline.Delivered after cls selector results) :
    discipline.Delivered after cls selector ((id, .found values) :: results) := by
  intro other found member
  rcases List.mem_cons.mp member with same | inRest
  · cases same
    exact brought.mono fun _ _ _ suits => suits_mono later suits
  · exact others other found inRest

theorem Delivered.cons_absent {id : String} {results : FetchResults}
    (others : discipline.Delivered after cls selector results) :
    discipline.Delivered after cls selector ((id, .absent) :: results) := by
  intro other found member
  rcases List.mem_cons.mp member with same | inRest
  · cases same
  · exact others other found inRest

theorem ensures_call {path : String} {params : Params} (valid : discipline.invariant before) :
    discipline.Ensures before (call path params) fun _ _ => True := by
  obtain ⟨validAfter, later⟩ := discipline.frame (before.calls ++ [⟨path, params⟩])
    { before.stats with remoteCalls := before.stats.remoteCalls + 1 } before.outputs valid
    fun entities member entity inside => .inl ⟨entities, member, inside⟩
  exact ensures_of_yields (yields_call_iff.mpr ⟨rfl, rfl⟩) ⟨validAfter, later⟩ trivial

theorem ensures_callOrFail {path : String} {params : Params}
    (valid : discipline.invariant before) :
    discipline.Ensures before (callOrFail path params) fun _ _ => True := by
  unfold callOrFail
  apply (ensures_call valid).bind
  intro reply after reached _
  cases reply with
  | ok response => exact ensures_pure reached.valid trivial
  | error failure => exact ensures_throw _ reached.valid

theorem loadPickers {fields : FieldPickers} (direct : fields.areDirect ∨ discipline.embeds)
    {path : String} {response : Json} (admitted : discipline.AdmitsBelow cls selector)
    (valid : discipline.invariant before) :
    discipline.Ensures before (fields.load path cls response selector) fun values after =>
      Brought (discipline.Suits after cls) selector.resolved values :=
  loadValues (loadField path fields direct) admitted valid

theorem single_fetch {method : SingleGetter}
    (direct : method.pickers.areDirect ∨ discipline.embeds)
    (admitted : discipline.AdmitsBelow method.cls selector) (valid : discipline.invariant before)
    (id : String) :
    discipline.Ensures before (method.fetch id selector) fun outcome after =>
      ∀ values, outcome = .found values →
        Brought (discipline.Suits after method.cls) selector.resolved values := by
  unfold SingleGetter.fetch
  apply ensures_ofExcept_bind valid
  intro params _
  apply (ensures_call valid).bind
  intro reply middle called _
  split
  · exact ensures_pure called.valid nofun
  · apply (loadPickers direct admitted called.valid).bind
    intro values after loaded brought
    apply ensures_pure loaded.valid
    rintro _ ⟨rfl⟩
    exact brought
  · split
    · exact ensures_pure called.valid nofun
    · exact ensures_throw _ called.valid

theorem single_fetchAll {method : SingleGetter}
    (direct : method.pickers.areDirect ∨ discipline.embeds)
    (admitted : discipline.AdmitsBelow method.cls selector) (ids : List String) :
    discipline.Fetches method.cls selector (method.fetchAll selector ids) := by
  induction ids with
  | nil => exact fun before valid => ensures_pure valid (delivered_nil _)
  | cons id rest inductionHypothesis =>
      intro before valid
      unfold SingleGetter.fetchAll
      apply (single_fetch direct admitted valid id).bind
      intro outcome middle first brought
      apply (inductionHypothesis first.valid).bind
      intro others after second delivered
      apply ensures_pure second.valid
      cases outcome with
      | found values => exact .cons_found second.later (brought values rfl) delivered
      | absent => exact .cons_absent delivered

theorem batch_readKeyed {method : BatchGetter}
    (direct : method.pickers.areDirect ∨ discipline.embeds)
    (admitted : discipline.AdmitsBelow method.cls selector) (records : Json) (ids : List String) :
    discipline.Fetches method.cls selector (method.readKeyed selector records ids) := by
  induction ids with
  | nil => exact fun before valid => ensures_pure valid (delivered_nil _)
  | cons id rest inductionHypothesis =>
      intro before valid
      unfold BatchGetter.readKeyed
      apply ensures_ofExcept_bind valid
      intro key _
      have nothing : discipline.Ensures before (do
          let results ← method.readKeyed selector records rest
          return (id, FetchOutcome.absent) :: results) fun results after =>
            discipline.Delivered after method.cls selector results := by
        apply (inductionHypothesis valid).bind
        exact fun others after reached delivered =>
          ensures_pure reached.valid (.cons_absent delivered)
      split
      · exact nothing
      · exact nothing
      · simp only [pure_bind]
        apply (loadPickers direct admitted valid).bind
        intro values middle first brought
        apply (inductionHypothesis first.valid).bind
        intro others after second delivered
        exact ensures_pure second.valid (.cons_found second.later brought delivered)

theorem batch_readRecords {method : BatchGetter}
    (direct : method.pickers.areDirect ∨ discipline.embeds)
    (admitted : discipline.AdmitsBelow method.cls selector) (spec : IdSpec) (wanted : List String)
    (records : List Json) {found : OrderedMap FieldValues} (valid : discipline.invariant before)
    (known : ∀ id values, (id, values) ∈ found →
      Brought (discipline.Suits before method.cls) selector.resolved values) :
    discipline.Ensures before (method.readRecords spec wanted selector found records)
      fun result after => ∀ id values, (id, values) ∈ result →
        Brought (discipline.Suits after method.cls) selector.resolved values := by
  induction records generalizing before found with
  | nil => exact ensures_pure valid known
  | cons record rest inductionHypothesis =>
      unfold BatchGetter.readRecords
      split
      · exact inductionHypothesis valid known
      · apply ensures_ofExcept_bind valid
        intro id? _
        cases id? with
        | none => exact inductionHypothesis valid known
        | some id =>
            simp only
            split
            · exact inductionHypothesis valid known
            · apply (loadPickers direct admitted valid).bind
              intro values middle first brought
              apply inductionHypothesis first.valid
              intro other stored member
              rcases OrderedMap.mem_set member with same | old
              · cases same
                exact brought
              · exact (known other stored old).mono fun _ _ _ suits => suits_mono first.later suits

/-- Without a record the selected fields are null, and refer to nothing. -/
theorem brought_nullValues (schema : Schema) (nullCls : ClassId) (selector : Selector) :
    Brought (discipline.Suits before cls) selector.resolved
      (BatchGetter.nullValues schema nullCls selector) := by
  intro name value member
  obtain ⟨listed, inNames, same⟩ := List.mem_filterMap.mp member
  obtain ⟨field, found, pair⟩ := Option.map_eq_some_iff.mp same
  cases pair
  have named : field.name = listed := by
    obtain ⟨_, _, search⟩ := Option.bind_eq_some_iff.mp found
    simpa using List.find?_some search
  obtain ⟨sub, selected⟩ := Selector.exists_mem_resolved (named ▸ inNames)
  refine ⟨sub, selected, fun entity inValue => ?_⟩
  unfold BatchGetter.nullValue at inValue
  split at inValue <;> simp [FieldValue.entities] at inValue

theorem batch_readListed {method : BatchGetter}
    (direct : method.pickers.areDirect ∨ discipline.embeds)
    (admitted : discipline.AdmitsBelow method.cls selector) (spec : IdSpec) (ids : List String)
    (response : Json) :
    discipline.Fetches method.cls selector (method.readListed spec ids selector response) := by
  intro before valid
  have read (records : List Json) : discipline.Ensures before (do
      let found ← method.readRecords spec ids selector [] records
      let schema ← schema
      return ids.map fun id => (id, .found ((found.get? id).getD
        (BatchGetter.nullValues schema method.cls selector)))) fun results after =>
          discipline.Delivered after method.cls selector results := by
    apply (batch_readRecords direct admitted spec ids records valid (by simp)).bind
    intro found after reached brought
    apply ensures_schema_bind
    apply ensures_pure reached.valid
    intro id values member
    obtain ⟨wanted, _, pair⟩ := List.mem_map.mp member
    cases pair
    cases stored : found.get? id with
    | none => exact brought_nullValues _ _ _
    | some values => exact brought id values (OrderedMap.mem_of_get? stored)
  unfold BatchGetter.readListed
  cases response with
  | null => exact read []
  | array records => exact read records
  | _ => exact ensures_throw _ valid

theorem batch_fetchAll {method : BatchGetter}
    (direct : method.pickers.areDirect ∨ discipline.embeds)
    (admitted : discipline.AdmitsBelow method.cls selector) (ids : List String) :
    discipline.Fetches method.cls selector (method.fetchAll ids selector) := by
  intro before valid
  unfold BatchGetter.fetchAll
  apply ensures_ofExcept_bind valid
  intro params _
  apply (ensures_callOrFail valid).bind
  intro response middle called _
  split
  · exact batch_readListed direct admitted _ ids response called.valid
  · split
    · exact batch_readKeyed direct admitted _ ids called.valid
    · exact ensures_throw _ called.valid

theorem brought_rowValues (row : Json) (selector : Selector) :
    Brought (discipline.Suits before cls) selector.resolved
      (TableGetter.rowValues row selector) := by
  intro name value member
  obtain ⟨listed, inNames, same⟩ := List.mem_filterMap.mp member
  obtain ⟨scalar, _, pair⟩ := Option.map_eq_some_iff.mp same
  cases pair
  obtain ⟨sub, selected⟩ := Selector.exists_mem_resolved inNames
  exact ⟨sub, selected, by simp [FieldValue.entities]⟩

theorem delivered_readRows (table : Json) (ids : List String) :
    discipline.Delivered before cls selector (TableGetter.readRows table selector ids) := by
  induction ids with
  | nil => exact delivered_nil _
  | cons id rest inductionHypothesis =>
      unfold TableGetter.readRows
      split
      · exact inductionHypothesis
      · exact .cons_found (discipline.refl _) (brought_rowValues _ _) inductionHypothesis
      · exact .cons_absent inductionHypothesis

theorem table_fetchAll {method : TableGetter} (ids : List String) :
    discipline.Fetches cls selector (method.fetchAll ids selector) := by
  intro before valid
  unfold TableGetter.fetchAll
  apply (ensures_callOrFail valid).bind
  exact fun table after reached _ => ensures_pure reached.valid (delivered_readRows table ids)

theorem fetch {getter : Getter} (direct : getter.isDirect ∨ discipline.embeds)
    (candidacy : Candidacy) (admitted : discipline.AdmitsBelow getter.cls candidacy.selector) :
    discipline.Fetches getter.cls candidacy.selector (getter.fetch candidacy) := by
  cases getter with
  | single method => exact single_fetchAll direct admitted candidacy.ids
  | batch method => exact batch_fetchAll direct admitted candidacy.ids
  | table method => exact table_fetchAll candidacy.ids

theorem loadPicked (embeds : discipline.embeds) (admitted : discipline.admits cls selector)
    (pickers : EntityPickers) (path : String) (response : Json) :
    discipline.Finds cls selector (pickers.load path cls response selector) Option.toList :=
  loadEntity (loadField path pickers.fields (.inr embeds)) embeds admitted path pickers.id
    response

theorem list_execute (embeds : discipline.embeds) (method : ListMethod)
    (admitted : discipline.admits method.cls selector) :
    discipline.Finds method.cls selector (method.execute selector) id := by
  intro before valid
  unfold ListMethod.execute
  apply (ensures_callOrFail valid).bind
  intro response middle called _
  apply ensures_ofExcept_bind called.valid
  intro items _
  exact loadEntities (loadPicked embeds admitted method.pickers method.path) items called.valid

theorem search_loadItems (embeds : discipline.embeds) (method : SearchMethod) (item : ClassId)
    (field : Field)
    (admitted : ∀ inner, field.kind.target? = some inner → discipline.admits inner selector)
    (responses : List Json) (valid : discipline.invariant before) :
    discipline.Ensures before (method.loadItems item field selector responses)
      fun handles after => ∀ handle ∈ handles, discipline.knows after handle := by
  induction responses generalizing before with
  | nil => exact ensures_pure valid (by simp)
  | cons response rest inductionHypothesis =>
      unfold SearchMethod.loadItems
      apply (load method.path method.picker field response (.inr embeds) admitted valid).bind
      intro value picked first served
      split
      · exact ensures_throw _ first.valid
      · apply ensures_ofExcept_bind first.valid
        intro highlight _
        have serve : ∀ name stored, (name, stored) ∈ OrderedMap.ofEntries
            [(field.name, value), (matchField, .scalar (.matchText highlight))] →
            ∀ other ∈ stored.entities, ∃ inner,
              discipline.serves picked inner selector other := by
          intro name stored member other inValue
          rcases List.mem_cons.mp (OrderedMap.mem_ofEntries member) with same | inRest
          · cases same
            obtain ⟨inner, _, serve⟩ := served other inValue
            exact ⟨inner, serve⟩
          · cases List.mem_singleton.mp inRest
            simp [FieldValue.entities] at inValue
        apply (ensures_shelved first.valid serve).bind
        intro handle shelved second known
        apply (inductionHypothesis second.valid).bind
        intro handles after third others
        apply ensures_pure third.valid
        exact List.forall_mem_cons.mpr ⟨discipline.remains third.later known, others⟩

theorem search_execute (embeds : discipline.embeds) (method : SearchMethod)
    (admitted : ∀ item field, method.itemField context.catalog.schema = .ok (item, field) →
      ∀ inner, field.kind.target? = some inner → discipline.admits inner selector)
    (query : String) (valid : discipline.invariant before) :
    discipline.Ensures before (method.execute query selector) fun handles after =>
      ∀ handle ∈ handles, discipline.knows after handle := by
  unfold SearchMethod.execute
  apply ensures_schema_bind
  apply ensures_ofExcept_bind valid
  rintro ⟨item, field⟩ found
  apply ensures_read_bind
  apply (ensures_callOrFail valid).bind
  intro response middle called _
  split
  · exact ensures_throw _ called.valid
  · exact search_loadItems embeds method item field (admitted item field found) _ called.valid

theorem currentUser_load (embeds : discipline.embeds) (method : CurrentUserMethod)
    (admitted : discipline.admits method.cls selector) :
    discipline.Finds method.cls selector (method.load selector) fun user => [user] := by
  intro before valid
  unfold CurrentUserMethod.load
  apply (ensures_callOrFail valid).bind
  intro response middle called _
  apply (loadPicked embeds admitted method.pickers method.path response called.valid).bind
  intro user? after loaded served
  cases user? with
  | none => exact ensures_throw _ loaded.valid
  | some user => exact ensures_pure loaded.valid served

end Run.Discipline

end EntityResolver
