import EntityResolver.Proofs.Batches
import EntityResolver.Proofs.Catalog.Registered
import EntityResolver.Proofs.Run.Composed
import EntityResolver.Proofs.Twin.Fetching

/-!
# Listed batches

A batch may be answered by a list of records with their own ids, in any order. Of each id wanted the
first record counts, and an id without a record has null values. Nothing else in the list matters,
neither for the results nor for the state of the run: null records, records without id, records of
strangers, and later records of an id.
-/

set_option autoImplicit false

namespace EntityResolver

open Run

/-- A map from texts to what is said of each has what is said of any of them. -/
theorem OrderedMap.get?_map_of_mem {α : Type} {keys : List String} {key : String}
    {value : String → α} (member : key ∈ keys) :
    OrderedMap.get? (keys.map fun key => (key, value key)) key = some (value key) := by
  induction keys with
  | nil => cases member
  | cons other rest inductionHypothesis =>
      rw [List.map_cons, OrderedMap.get?_cons]
      split
      · rename_i same
        rw [same]
      · rename_i differs
        exact inductionHypothesis ((List.mem_cons.mp member).resolve_left (Ne.symm differs))

/-- Nothing is offered for more fields than are supplied, or twice for an id. -/
theorem BatchGetter.offers {method : BatchGetter} {pool : List Target} {candidacy : Candidacy}
    (offered : (Getter.batch method).candidacy? pool = some candidacy) :
    candidacy.ids.Nodup ∧ candidacy.selector.names ⊆ method.pickers.names := by
  simp only [Getter.candidacy?, Candidacy.ofBatch] at offered
  split at offered
  · cases offered
  · cases offered
    refine ⟨Candidacy.nodup_distinct _, fun name member => ?_⟩
    have isOpen := Selector.names_project_subset _ _ member
    exact (Target.mem_openAmong.mp isOpen).2

namespace FieldKind

/-- The value refers to no entity and stands for null in a field of the kind. -/
def IsNull (kind : FieldKind ClassId) (value : FieldValue Handle) : Prop :=
  kind.holds value = true ∧ value.entities = [] ∧ value = BatchGetter.nullValue kind

theorem isNull_nullValue (kind : FieldKind ClassId) : kind.IsNull (BatchGetter.nullValue kind) := by
  refine ⟨BatchGetter.holds_nullValue kind, ?_, rfl⟩
  cases kind <;> rfl

end FieldKind

theorem get?_nullValues {schema : Schema} {cls : ClassId} {selector : Selector} {name : String}
    {field : Field} (selected : name ∈ selector.names)
    (known : schema.field? cls name = some field) :
    OrderedMap.get? (BatchGetter.nullValues schema cls selector) name =
      some (BatchGetter.nullValue field.kind) := by
  unfold BatchGetter.nullValues
  generalize selector.names = names at selected
  induction names with
  | nil => cases selected
  | cons other rest inductionHypothesis =>
      by_cases same : other = name
      · subst same
        obtain rfl := Schema.name_of_field? known
        simp [known, OrderedMap.get?_cons]
      · have inRest := (List.mem_cons.mp selected).resolve_left (Ne.symm same)
        cases found : schema.field? cls other with
        | none => simpa [found] using inductionHypothesis inRest
        | some unwanted =>
            have differs : unwanted.name ≠ name := Schema.name_of_field? found ▸ same
            simpa [found, OrderedMap.get?_cons, differs] using inductionHypothesis inRest

namespace BatchGetter

variable {method : BatchGetter} {spec : IdSpec} {selector : Selector}
variable {found : OrderedMap FieldValues} {context : RunContext} {before after : RunState}

/-- What a batch tells of an id: the values found, or null values. Each selected field of the class
has a value. -/
structure Told (method : BatchGetter) (schema : Schema) (selector : Selector)
    (found : OrderedMap FieldValues) (id : String) (values : FieldValues) : Prop where
  recorded : ∀ loaded, OrderedMap.get? found id = some loaded → values = loaded
  blank : OrderedMap.get? found id = none → ∀ name ∈ selector.names, ∀ field,
    schema.field? method.cls name = some field →
      ∃ value, OrderedMap.get? values name = some value ∧ field.kind.IsNull value
  full : ∀ name ∈ selector.names, ∀ field, schema.field? method.cls name = some field →
    (OrderedMap.get? values name).isSome = true

theorem told_of_loadEach {firsts : List (String × Json)}
    (supplied : selector.names ⊆ method.pickers.names)
    (done : Yields context (method.loadEach selector firsts) before found after) (id : String) :
    method.Told context.catalog.schema selector found id
      ((OrderedMap.get? found id).getD
        (nullValues context.catalog.schema method.cls selector)) := by
  cases known : OrderedMap.get? found id with
  | some values =>
      refine ⟨fun _ same => Option.some.inj (known.symm.trans same), by simp [known], ?_⟩
      intro name selected field _
      obtain ⟨record, earlier, later, _, loads⟩ := yields_loadEach_load done known
      exact (isSome_get?_load_iff loads).mpr
        ⟨selected, FieldPickers.isSome_find?_iff.mpr (supplied selected)⟩
  | none =>
      refine ⟨by simp [known], fun _ name selected field ofClass => ?_, ?_⟩
      · exact ⟨_, get?_nullValues selected ofClass, field.kind.isNull_nullValue⟩
      · intro name selected field ofClass
        simp [get?_nullValues selected ofClass]

/-- What a listed batch gives is found for exactly the ids wanted, each once and in their order. The
first record of an id gives its values, and an id without a record has null values. The state of the
run is as if only these records were loaded, one after the other. -/
theorem listed_exact (method : BatchGetter) {spec : IdSpec} {pool : List Target}
    {candidacy : Candidacy} {results : FetchResults} (listed : method.layout = .listed spec)
    (offered : (Getter.batch method).candidacy? pool = some candidacy)
    (done : Yields context ((Getter.batch method).fetch candidacy) before results after) :
    candidacy.ids.Nodup ∧ OrderedMap.keys results = candidacy.ids ∧
    ∃ params response records firsts found,
      method.params candidacy.ids candidacy.selector = .ok params ∧
      context.remote before.calls ⟨method.path, params⟩ = .ok response ∧
      response.records? = some records ∧ method.Readable spec records ∧
      method.FirstRecords spec candidacy.ids records firsts ∧
      Yields context (method.loadEach candidacy.selector firsts)
        (called before ⟨method.path, params⟩) found after ∧
      OrderedMap.keys found = firsts.map Prod.fst ∧
      ∀ id ∈ candidacy.ids, ∃ values, OrderedMap.get? results id = some (.found values) ∧
        method.Told context.catalog.schema candidacy.selector found id values := by
  obtain ⟨nodup, supplied⟩ := offers offered
  have fetches : Yields context (method.fetchAll candidacy.ids candidacy.selector) before results
      after := done
  rw [fetchAll_eq] at fetches
  obtain ⟨params, built, calls⟩ := yields_ofExcept_bind_iff.mp fetches
  obtain ⟨response, _, answers, reads⟩ := yields_bind_iff.mp calls
  obtain ⟨answered, rfl⟩ := yields_callOrFail_iff.mp answers
  simp only [read, listed] at reads
  obtain ⟨records, found, shown, readable, loads, rfl⟩ := yields_readListed_iff.mp reads
  refine ⟨nodup, by simp [OrderedMap.keys, Function.comp_def], params, response, records, _, found,
    liftError_eq_ok_iff.mp built, answered, shown, readable, firstRecords_firsts, loads,
    keys_loadEach loads, fun id member => ?_⟩
  exact ⟨_, OrderedMap.get?_map_of_mem member, told_of_loadEach supplied loads id⟩

end BatchGetter

namespace Nodes

def cls : ClassId := ⟨0⟩

/-- The points of the nodes of a test are given by a list. -/
def nodeClass : EntityClass :=
  { id := cls
    name := "Node"
    fields := [⟨"points", cls, .scalar .string, false, false⟩,
      ⟨"graders", cls, .entityList ⟨1⟩, false, false⟩]
    searchItem := none
    foundField := none
    defaultSelector := .empty }

def graderClass : EntityClass :=
  { id := ⟨1⟩
    name := "Grader"
    fields := []
    searchItem := none
    foundField := none
    defaultSelector := .empty }

def getter : BatchGetter :=
  { path := "tests/points"
    cls := cls
    ids := .elementary "node_ids"
    pickers := .field "points" (.scalar .raw "points")
      (.field "graders" (.referenceList "grader_ids") .none)
    layout := .listed (.elementary "node_id")
    sendsFields := false }

def record (id : Json) (points grader : String) : Json :=
  .object [("node_id", id), ("points", .str points), ("grader_ids", .array [.str grader])]

/-- A null, a stranger, a record without id, and two records of one node. -/
def records : List Json :=
  [.null, record (.int 77) "1.0" "7", record .null "2.0" "8", record (.int 1) "4.5" "5",
    record (.str "1") "3.0" "9"]

def context : RunContext where
  catalog := { Catalog.empty ⟨[nodeClass, graderClass]⟩ with getters := [.batch getter] }
  remote := fun _ _ => .ok (.array records)
  lang := .pl
  roundLimit := 0

def selector : Selector := .nested "points" .empty (.nested "graders" .empty .empty)

def wanted (entity : Nat) (id : String) : Target :=
  ⟨⟨entity⟩, cls, id, selector, ["points", "graders"], false⟩

def pool : List Target := [wanted 0 "1", wanted 1 "2"]

def candidacy : Candidacy := ⟨[0, 1], ["1", "2"], selector, 4⟩

def results : FetchResults :=
  [("1", .found [("points", .scalar (.ofJson (.str "4.5"))), ("graders", .list [⟨0⟩])]),
    ("2", .found [("points", .scalar .null), ("graders", .list [])])]

/-- One record counts, and only its grader is spawned. -/
theorem listed_exact_nodes :
    getter.layout = .listed (.elementary "node_id") ∧
    (Getter.batch getter).candidacy? pool = some candidacy ∧
    ∃ after, Yields context ((Getter.batch getter).fetch candidacy) { calls := [] } results after ∧
      after.arena.toList.map EntityRecord.id = [some "5"] ∧
      candidacy.ids.Nodup ∧ OrderedMap.keys results = candidacy.ids ∧
      ∃ params response records firsts found,
        getter.params candidacy.ids candidacy.selector = .ok params ∧
        context.remote [] ⟨getter.path, params⟩ = .ok response ∧
        response.records? = some records ∧ getter.Readable (.elementary "node_id") records ∧
        getter.FirstRecords (.elementary "node_id") candidacy.ids records firsts ∧
        Yields context (getter.loadEach candidacy.selector firsts)
          (called { calls := [] } ⟨getter.path, params⟩) found after ∧
        OrderedMap.keys found = firsts.map Prod.fst ∧
        ∀ id ∈ candidacy.ids, ∃ values, OrderedMap.get? results id = some (.found values) ∧
          getter.Told context.catalog.schema candidacy.selector found id values := by
  have offered : (Getter.batch getter).candidacy? pool = some candidacy := rfl
  have done : Yields context ((Getter.batch getter).fetch candidacy) { calls := [] } results _ :=
    rfl
  exact ⟨rfl, offered, _, done, rfl, getter.listed_exact rfl offered done⟩

end Nodes

end EntityResolver
