import EntityResolver.Proofs.Run.Members
import EntityResolver.Proofs.Twin.Reading

/-!
Getters, lists, searches and the call of the current user, in two languages.

The runs make the same calls, so they get the same responses. A getter delivers a value for each
field that it is asked for.
-/

set_option autoImplicit false

namespace EntityResolver

theorem FieldPickers.isSome_find?_iff {fields : FieldPickers} {name : String} :
    (fields.find? name).isSome = true ↔ name ∈ fields.names := by
  induction fields using FieldPickers.names.induct with
  | case1 => simp [FieldPickers.find?, FieldPickers.names]
  | case2 other picker rest inductionHypothesis =>
      simp only [FieldPickers.find?, FieldPickers.names, List.mem_cons]
      split
      · simp_all
      · rename_i differs
        rw [inductionHypothesis]
        simp [Ne.symm differs]

theorem harmless_walk (path : String) (steps : List ListStep) (value : Json) :
    Harmless (walk path steps value) := by
  induction steps generalizing value with
  | nil => exact harmless_ok _
  | cons step rest inductionHypothesis =>
      have all (values : List Json) : Harmless (walk.walkAll (walk path rest) values) := by
        induction values with
        | nil => exact harmless_ok _
        | cons value others inductionHypothesisToo =>
            apply harmless_bind (inductionHypothesis value)
            intro found
            apply harmless_bind inductionHypothesisToo
            exact fun more => harmless_ok _
      cases step with
      | key key =>
          simp only [walk]
          split
          · exact inductionHypothesis _
          · exact harmless_malformed _ _
      | each =>
          simp only [walk]
          split
          · exact all _
          · exact all _
          · exact harmless_ok _
          · exact harmless_malformed _ _

namespace Run

variable {context : RunContext} {state ended : RunState}

namespace Pairing

variable {other : Lang} {pairing : Pairing context other}
variable {before : RunState × RunState} {arena later : Array EntityRecord} {cls : ClassId}
variable {selector : Selector} {names : List String} {values valuesToo : FieldValues}

/-- The values bring what suits the fields of the class, and none of the named fields is lacking,
unless a run may fail for that. -/
structure Carries (pairing : Pairing context other) (arena : Array EntityRecord) (cls : ClassId)
    (names : List String) (values valuesToo : FieldValues) : Prop where
  brings : pairing.Brings arena cls values valuesToo
  full : ∀ name ∈ names, (values.get? name).isSome = true ∨ ∀ error, pairing.permits error

inductive SameOutcome (pairing : Pairing context other) (arena : Array EntityRecord)
    (cls : ClassId) (names : List String) : FetchOutcome → FetchOutcome → Prop where
  | found {values valuesToo : FieldValues}
      (carries : pairing.Carries arena cls names values valuesToo) :
      SameOutcome pairing arena cls names (.found values) (.found valuesToo)
  | absent : SameOutcome pairing arena cls names .absent .absent

/-- The call says the same about each entity in both runs. -/
abbrev Delivers (pairing : Pairing context other) (arena : Array EntityRecord) (cls : ClassId)
    (names : List String) : FetchResults → FetchResults → Prop :=
  OrderedMap.Matched fun _ => pairing.SameOutcome arena cls names

theorem Carries.mono (carries : pairing.Carries arena cls names values valuesToo)
    (keeps : ∀ cls entity, Hosts arena cls entity → Hosts later cls entity) :
    pairing.Carries later cls names values valuesToo :=
  ⟨carries.brings.mono keeps, carries.full⟩

theorem SameOutcome.mono {outcome outcomeToo : FetchOutcome}
    (same : pairing.SameOutcome arena cls names outcome outcomeToo)
    (keeps : ∀ cls entity, Hosts arena cls entity → Hosts later cls entity) :
    pairing.SameOutcome later cls names outcome outcomeToo := by
  cases same with
  | found carries => exact .found (carries.mono keeps)
  | absent => exact .absent

theorem Delivers.mono {results resultsToo : FetchResults}
    (delivers : pairing.Delivers arena cls names results resultsToo)
    (keeps : ∀ cls entity, Hosts arena cls entity → Hosts later cls entity) :
    pairing.Delivers later cls names results resultsToo :=
  OrderedMap.Matched.mono delivers fun _ _ _ same => same.mono keeps

theorem joins_loadPickers {fields : FieldPickers} {path : String} {response : Json}
    (trusts : pairing.Trusts cls fields) (admitted : pairing.admits cls selector)
    (supplies : ∀ name ∈ selector.names, (fields.find? name).isSome = true)
    (valid : pairing.Paired before) :
    pairing.Joins before (fields.load path cls response selector)
      (fields.load path cls response selector) fun one two after =>
        pairing.Carries after.1.arena cls selector.names one two := by
  have reads : pairing.Reads cls (fields.loadField path) :=
    fun name sub response selects before valid =>
      joins_loadField path fields response (trusts name) selects valid
  apply (joins_loadValues reads admitted valid).andYields.mono
  rintro one two after ⟨brings, done⟩
  exact ⟨brings, fun name selected =>
    .inl ((isSome_get?_load_iff done).mpr ⟨selected, supplies name selected⟩)⟩

theorem joins_single_fetch {method : SingleGetter}
    (trusts : pairing.Trusts method.cls method.pickers)
    (admitted : pairing.admits method.cls selector)
    (supplies : ∀ name ∈ selector.names, (method.pickers.find? name).isSome = true)
    (valid : pairing.Paired before) (id : String) :
    pairing.Joins before (method.fetch id selector) (method.fetch id selector) fun one two after =>
      pairing.SameOutcome after.1.arena method.cls selector.names one two := by
  unfold SingleGetter.fetch
  apply joins_harmless_bind valid (harmless_value _)
  intro params _
  apply (joins_call valid).bind
  rintro reply _ middle called rfl
  split
  · exact joins_pure called.valid .absent
  · apply (joins_loadPickers trusts admitted supplies called.valid).bind
    exact fun values valuesToo after loaded carries => joins_pure loaded.valid (.found carries)
  · split
    · exact joins_pure called.valid .absent
    · exact joins_throw called.valid (pairing.permitted not_false)

theorem joins_single_fetchAll {method : SingleGetter}
    (trusts : pairing.Trusts method.cls method.pickers)
    (admitted : pairing.admits method.cls selector)
    (supplies : ∀ name ∈ selector.names, (method.pickers.find? name).isSome = true)
    (ids : List String) (valid : pairing.Paired before) :
    pairing.Joins before (method.fetchAll selector ids) (method.fetchAll selector ids)
      fun one two after => pairing.Delivers after.1.arena method.cls selector.names one two := by
  induction ids generalizing before with
  | nil => exact joins_pure valid .nil
  | cons id rest inductionHypothesis =>
      unfold SingleGetter.fetchAll
      apply (joins_single_fetch trusts admitted supplies valid id).bind
      intro outcome outcomeToo middle first same
      apply (inductionHypothesis first.valid).bind
      intro results resultsToo after second delivers
      exact joins_pure second.valid (.cons ⟨rfl, same.mono second.later⟩ delivers)

theorem joins_batch_readKeyed {method : BatchGetter}
    (trusts : pairing.Trusts method.cls method.pickers)
    (admitted : pairing.admits method.cls selector)
    (supplies : ∀ name ∈ selector.names, (method.pickers.find? name).isSome = true)
    (records : Json) (ids : List String) (valid : pairing.Paired before) :
    pairing.Joins before (method.readKeyed selector records ids)
      (method.readKeyed selector records ids) fun one two after =>
        pairing.Delivers after.1.arena method.cls selector.names one two := by
  induction ids generalizing before with
  | nil => exact joins_pure valid .nil
  | cons id rest inductionHypothesis =>
      unfold BatchGetter.readKeyed
      apply joins_harmless_bind valid (harmless_value _)
      intro key _
      have nothing : pairing.Joins before
          (do
            let results ← method.readKeyed selector records rest
            return (id, FetchOutcome.absent) :: results)
          (do
            let results ← method.readKeyed selector records rest
            return (id, FetchOutcome.absent) :: results) fun one two after =>
              pairing.Delivers after.1.arena method.cls selector.names one two := by
        apply (inductionHypothesis valid).bind
        exact fun results resultsToo after reached delivers =>
          joins_pure reached.valid (.cons ⟨rfl, .absent⟩ delivers)
      split
      · exact nothing
      · exact nothing
      · simp only [pure_bind]
        apply (joins_loadPickers trusts admitted supplies valid).bind
        intro values valuesToo middle first carries
        apply (inductionHypothesis first.valid).bind
        intro results resultsToo after second delivers
        exact joins_pure second.valid (.cons ⟨rfl, .found (carries.mono second.later)⟩ delivers)

theorem joins_batch_readRecords {method : BatchGetter}
    (trusts : pairing.Trusts method.cls method.pickers)
    (admitted : pairing.admits method.cls selector)
    (supplies : ∀ name ∈ selector.names, (method.pickers.find? name).isSome = true)
    (spec : IdSpec) (wanted : List String) (records : List Json)
    {found foundToo : OrderedMap FieldValues} (valid : pairing.Paired before)
    (carries : OrderedMap.Matched
      (fun _ => pairing.Carries before.1.arena method.cls selector.names) found foundToo) :
    pairing.Joins before (method.readRecords spec wanted selector found records)
      (method.readRecords spec wanted selector foundToo records) fun one two after =>
        OrderedMap.Matched (fun _ => pairing.Carries after.1.arena method.cls selector.names) one
          two := by
  induction records generalizing before found foundToo with
  | nil => exact joins_pure valid carries
  | cons record rest inductionHypothesis =>
      unfold BatchGetter.readRecords
      split
      · exact inductionHypothesis valid carries
      · apply joins_harmless_bind valid (harmless_load _ _ _)
        intro id? _
        cases id? with
        | none => exact inductionHypothesis valid carries
        | some id =>
            simp only
            rw [carries.contains_eq]
            split
            · exact inductionHypothesis valid carries
            · apply (joins_loadPickers trusts admitted supplies valid).bind
              intro values valuesToo middle first own
              apply inductionHypothesis first.valid
              exact (carries.mono fun _ _ _ old => old.mono first.later).set own

theorem carries_nullValues {fields : FieldPickers} (trusts : pairing.Trusts cls fields)
    (supplies : ∀ name ∈ selector.names, (fields.find? name).isSome = true) :
    pairing.Carries arena cls selector.names
      (BatchGetter.nullValues context.catalog.schema cls selector)
      (BatchGetter.nullValues context.catalog.schema cls selector) := by
  have trusted (name : String) (selected : name ∈ selector.names) :
      ∃ picker, pairing.trusts cls name picker := by
    obtain ⟨picker, found⟩ := Option.isSome_iff_exists.mp (supplies name selected)
    exact ⟨picker, trusts name picker found⟩
  refine ⟨List.forall₂_same.mpr fun entry member => ⟨rfl, ?_⟩, fun name selected => ?_⟩
  · obtain ⟨name, selected, given⟩ := List.mem_filterMap.mp member
    obtain ⟨field, found, rfl⟩ := Option.map_eq_some_iff.mp given
    obtain ⟨picker, own⟩ := trusted name selected
    obtain rfl := Schema.name_of_field? found
    refine suits_of_holds (pairing.nulls own found) fun entity inValue => ?_
    simp only [BatchGetter.nullValue] at inValue
    split at inValue <;> simp [FieldValue.entities] at inValue
  · obtain ⟨picker, own⟩ := trusted name selected
    cases found : context.catalog.schema.field? cls name with
    | none => exact .inr (pairing.known own found)
    | some field =>
        obtain rfl := Schema.name_of_field? found
        have member : (field.name, BatchGetter.nullValue field.kind) ∈
            BatchGetter.nullValues context.catalog.schema cls selector :=
          List.mem_filterMap.mpr ⟨_, selected, by rw [found]; rfl⟩
        exact .inl (OrderedMap.isSome_get?_of_mem member)

theorem joins_batch_readListed {method : BatchGetter}
    (trusts : pairing.Trusts method.cls method.pickers)
    (admitted : pairing.admits method.cls selector)
    (supplies : ∀ name ∈ selector.names, (method.pickers.find? name).isSome = true)
    (spec : IdSpec) (ids : List String) (response : Json) (valid : pairing.Paired before) :
    pairing.Joins before (method.readListed spec ids selector response)
      (method.readListed spec ids selector response) fun one two after =>
        pairing.Delivers after.1.arena method.cls selector.names one two := by
  have read (records : List Json) : pairing.Joins before
      (do
        let found ← method.readRecords spec ids selector [] records
        let schema ← schema
        return ids.map fun id => (id, .found ((found.get? id).getD
          (BatchGetter.nullValues schema method.cls selector))))
      (do
        let found ← method.readRecords spec ids selector [] records
        let schema ← schema
        return ids.map fun id => (id, .found ((found.get? id).getD
          (BatchGetter.nullValues schema method.cls selector)))) fun one two after =>
            pairing.Delivers after.1.arena method.cls selector.names one two := by
    apply (joins_batch_readRecords trusts admitted supplies spec ids records valid .nil).bind
    intro found foundToo after reached carries
    apply joins_schema_bind
    apply joins_pure reached.valid
    refine List.forall₂_map_left_iff.mpr (List.forall₂_map_right_iff.mpr ?_)
    refine List.forall₂_same.mpr fun id _ => ⟨rfl, .found ?_⟩
    rcases optionRel_cases (carries.get? id) with ⟨here, there⟩ | ⟨_, _, here, there, own⟩
    · rw [here, there]
      exact carries_nullValues trusts supplies
    · rw [here, there]
      exact own
  unfold BatchGetter.readListed
  cases response with
  | null => exact read []
  | array records => exact read records
  | _ => exact joins_malformed valid

theorem joins_batch_fetchAll {method : BatchGetter}
    (trusts : pairing.Trusts method.cls method.pickers)
    (admitted : pairing.admits method.cls selector)
    (supplies : ∀ name ∈ selector.names, (method.pickers.find? name).isSome = true)
    (ids : List String) (valid : pairing.Paired before) :
    pairing.Joins before (method.fetchAll ids selector) (method.fetchAll ids selector)
      fun one two after => pairing.Delivers after.1.arena method.cls selector.names one two := by
  unfold BatchGetter.fetchAll
  apply joins_harmless_bind valid (harmless_value _)
  intro params _
  apply (joins_callOrFail valid).bind
  rintro response _ middle called rfl
  split
  · exact joins_batch_readListed trusts admitted supplies _ ids response called.valid
  · split
    · exact joins_batch_readKeyed trusts admitted supplies _ ids called.valid
    · exact joins_malformed called.valid

theorem carries_rowValues {method : TableGetter}
    (offered : .table method ∈ context.catalog.getters) (row : Json) :
    pairing.Carries arena method.cls names (TableGetter.rowValues row selector)
      (TableGetter.rowValues row selector) := by
  obtain ⟨permits, holds⟩ := pairing.tables offered
  refine ⟨List.forall₂_same.mpr fun entry member => ⟨rfl, ?_⟩, fun _ _ => .inr permits⟩
  obtain ⟨name, _, given⟩ := List.mem_filterMap.mp member
  obtain ⟨value, _, rfl⟩ := Option.map_eq_some_iff.mp given
  exact suits_of_holds (holds _ _) fun _ inValue => by cases inValue

theorem delivers_readRows {method : TableGetter}
    (offered : .table method ∈ context.catalog.getters) (table : Json) (ids : List String) :
    pairing.Delivers arena method.cls names (TableGetter.readRows table selector ids)
      (TableGetter.readRows table selector ids) := by
  induction ids with
  | nil => exact .nil
  | cons id rest inductionHypothesis =>
      unfold TableGetter.readRows
      split
      · exact inductionHypothesis
      · exact .cons ⟨rfl, .found (carries_rowValues offered _)⟩ inductionHypothesis
      · exact .cons ⟨rfl, .absent⟩ inductionHypothesis

theorem joins_fetch {getter : Getter} (offered : getter ∈ context.catalog.getters)
    {candidacy : Candidacy} (admitted : pairing.admits getter.cls candidacy.selector)
    (supplied : ∀ name ∈ candidacy.selector.names, name ∈ getter.supplied)
    (valid : pairing.Paired before) :
    pairing.Joins before (getter.fetch candidacy) (getter.fetch candidacy) fun one two after =>
      pairing.Delivers after.1.arena getter.cls candidacy.selector.names one two := by
  have trusts : pairing.Trusts getter.cls getter.pickers :=
    fun name picker found => pairing.getters offered found
  cases getter with
  | single method =>
      exact joins_single_fetchAll trusts admitted
        (fun name member => FieldPickers.isSome_find?_iff.mpr (supplied name member)) _ valid
  | batch method =>
      exact joins_batch_fetchAll trusts admitted
        (fun name member => FieldPickers.isSome_find?_iff.mpr (supplied name member)) _ valid
  | table method =>
      change pairing.Joins before (method.fetchAll _ _) (method.fetchAll _ _) _
      unfold TableGetter.fetchAll
      apply (joins_callOrFail valid).bind
      rintro table _ after reached rfl
      exact joins_pure reached.valid (delivers_readRows offered table _)

theorem finds_loadPicked {pickers : EntityPickers} (trusts : pairing.Trusts cls pickers.fields)
    (admitted : pairing.admits cls selector) (path : String) (response : Json) :
    pairing.Finds cls (pickers.load path cls response selector) Option.toList := by
  have reads : pairing.Reads cls (pickers.fields.loadField path) :=
    fun name sub response selects before valid =>
      joins_loadField path pickers.fields response (trusts name) selects valid
  exact finds_loadEntity reads admitted path pickers.id response

theorem finds_list_execute {method : ListMethod} (offered : method ∈ context.catalog.lists)
    (admitted : pairing.admits method.cls selector) :
    pairing.Finds method.cls (method.execute selector) fun entities => entities := by
  have trusts : pairing.Trusts method.cls method.pickers.fields :=
    fun name picker found => pairing.lists offered found
  intro before valid
  unfold ListMethod.execute
  apply (joins_callOrFail valid).bind
  rintro response _ middle called rfl
  apply joins_harmless_bind called.valid (harmless_walk _ _ _)
  intro items _
  exact finds_loadEntities (finds_loadPicked trusts admitted method.path) items called.valid

theorem finds_currentUser_load {method : CurrentUserMethod}
    (offered : context.catalog.currentUser = some method)
    (admitted : pairing.admits method.cls selector) :
    pairing.Finds method.cls (method.load selector) fun user => [user] := by
  have trusts : pairing.Trusts method.cls method.pickers.fields :=
    fun name picker found => pairing.currentUser offered found
  intro before valid
  unfold CurrentUserMethod.load
  apply (joins_callOrFail valid).bind
  rintro response _ middle called rfl
  apply (finds_loadPicked trusts admitted method.path response called.valid).bind
  rintro user? _ after loaded ⟨rfl, known⟩
  cases user? with
  | none => exact joins_malformed loaded.valid
  | some user => exact joins_pure loaded.valid ⟨rfl, known⟩

theorem joins_search_loadItems {method : SearchMethod} {item : ClassId} {field : Field}
    (trusted : pairing.trusts item field.name method.picker)
    (found : context.catalog.schema.field? item field.name = some field)
    (holds : ∀ scalar, pairing.holds item matchField (.scalar scalar))
    (selects : pairing.Selects item field.name selector) (responses : List Json)
    (valid : pairing.Paired before) :
    pairing.Joins before (method.loadItems item field selector responses)
      (method.loadItems item field selector responses) fun one two _ => one = two := by
  induction responses generalizing before with
  | nil => exact joins_pure valid rfl
  | cons response rest inductionHypothesis =>
      unfold SearchMethod.loadItems
      apply (picks_load method.path method.picker response trusted found selects valid).bind
      intro value valueToo picked first suits
      split
      · exact joins_malformed first.valid
      · apply joins_harmless_bind first.valid (harmless_value _)
        intro highlight _
        have text : pairing.Suits picked.1.arena item matchField (.scalar (.matchText highlight))
            (.scalar (.matchText highlight)) :=
          suits_of_holds (holds _) fun _ member => by cases member
        have brings : pairing.Brings picked.1.arena item
            (OrderedMap.ofEntries
              [(field.name, value), (matchField, .scalar (.matchText highlight))])
            (OrderedMap.ofEntries
              [(field.name, valueToo), (matchField, .scalar (.matchText highlight))]) :=
          OrderedMap.Matched.ofEntries (.cons ⟨rfl, suits⟩ (.cons ⟨rfl, text⟩ .nil))
        apply (joins_alloc first.valid brings).bind
        rintro handle _ shelved second ⟨rfl, _⟩
        apply (inductionHypothesis second.valid).bind
        rintro handles _ after third rfl
        exact joins_pure third.valid rfl

theorem joins_search_execute {method : SearchMethod} (offered : method ∈ context.catalog.searches)
    (sameLang : other = context.lang)
    (selects : ∀ item field, method.itemField context.catalog.schema = .ok (item, field) →
      pairing.Selects item field.name selector)
    (query : String) (valid : pairing.Paired before) :
    pairing.Joins before (method.execute query selector) (method.execute query selector)
      fun one two _ => one = two := by
  obtain ⟨opens, items⟩ := pairing.searches offered sameLang
  unfold SearchMethod.execute
  apply joins_schema_bind
  apply joins_ofExcept_bind valid opens
  rintro ⟨item, field⟩ opened
  obtain ⟨found, trusted, holds⟩ := items item field opened
  apply joins_read_bind
  simp only [RunContext.inLang, sameLang]
  apply (joins_callOrFail valid).bind
  rintro response _ middle called rfl
  split
  · exact joins_malformed called.valid
  · exact joins_search_loadItems trusted found holds (selects item field opened) _ called.valid

end Pairing

end Run

end EntityResolver
