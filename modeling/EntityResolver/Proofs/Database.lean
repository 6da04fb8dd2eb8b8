import EntityResolver.Proofs.Run.Demands

/-!
Remotes that answer from a database.

What a fetch spawns is what reading records of the entities asked for spawns.
-/

set_option autoImplicit false

namespace EntityResolver

/-- The records of entities. A record may be shown in several forms, of different fields say. -/
structure Database where
  Shows : EntityKey → Json → Prop

def Database.Finite (database : Database) : Prop :=
  ∃ known : List EntityKey, ∀ entity record, database.Shows entity record → entity ∈ known

/-- The pickers of a getter. The rows of tables need none. -/
def Getter.fields : Getter → FieldPickers
  | .single method => method.pickers
  | .batch method => method.pickers
  | .table _ => .none

/-- What a remote answers a getter with comes from a database. -/
def Getter.AnsweredFrom (database : Database) (remote : Remote) : Getter → Prop
  | .single method => ∀ id selector params earlier response,
      method.params id selector = .ok params →
      remote earlier ⟨method.path, params⟩ = .ok response →
      response = .null ∨ database.Shows (method.cls, id) response
  | .batch method => ∀ ids selector params earlier response,
      method.params ids selector = .ok params →
      remote earlier ⟨method.path, params⟩ = .ok response →
      match method.layout with
      | .keyed => ∀ id ∈ ids, ∀ key record, method.ids.key id = .ok key →
          response.member? key = some record →
          record = .null ∨ database.Shows (method.cls, id) record
      | .listed spec => ∀ records, response = .array records → ∀ record ∈ records, ∀ id ∈ ids,
          spec.load method.path record = .ok (some id) → database.Shows (method.cls, id) record
  | .table _ => True

/-- The remote answers all getters from the database. -/
def Database.Answers (database : Database) (context : RunContext) : Prop :=
  ∀ getter ∈ context.catalog.getters, getter.AnsweredFrom database context.remote

namespace Run

variable {α β : Type} {context : RunContext} {before middle after : RunState}
variable {database : Database} {target : Target} {getter : Getter}

def Spawns (context : RunContext) (step : Run α) (target : Target) : Prop :=
  ∃ before result after new, Yields context step before result after ∧
    after.spawned = before.spawned ++ new ∧ target ∈ new

def Brings (context : RunContext) (getter : Getter) (record : Json) (selector : Selector)
    (target : Target) : Prop :=
  ∃ name sub, (name, sub) ∈ selector.resolved ∧
    Spawns context (getter.fields.loadField getter.path getter.cls record name sub) target

theorem prefix_loadField {fields : FieldPickers} {path : String} {cls : ClassId} {record : Json}
    {name : String} {sub : Selector} {value? : Option (FieldValue Handle)}
    (done : Yields context (fields.loadField path cls record name sub) before value? after) :
    before.spawned <+: after.spawned := by
  have reads : (appending context).Reads (fields.loadField path) :=
    Discipline.loadField path fields (.inr trivial)
  exact ((reads record (fun _ _ => trivial) trivial).yields done).1.later.2.2

theorem spawned_loadPickers {fields : FieldPickers} {path : String} {cls : ClassId}
    {record : Json} {selected : List (String × Selector)} {values : FieldValues}
    (done : Yields context (loadSelected (fields.loadField path) cls record selected) before values
      after) :
    ∀ target ∈ after.spawned, target ∈ before.spawned ∨ ∃ name sub, (name, sub) ∈ selected ∧
      Spawns context (fields.loadField path cls record name sub) target := by
  induction selected generalizing before values with
  | nil =>
      obtain ⟨rfl, rfl⟩ := yields_pure_iff.mp done
      exact fun target member => .inl member
  | cons entry rest inductionHypothesis =>
      obtain ⟨name, sub⟩ := entry
      simp only [loadSelected, yields_bind_iff, yields_pure_iff] at done
      obtain ⟨value?, middle, first, others, _, remaining, rfl, rfl⟩ := done
      intro target member
      rcases inductionHypothesis remaining target member with
        inMiddle | ⟨other, below, selected, new⟩
      · obtain ⟨new, split⟩ := prefix_loadField first
        rw [← split] at inMiddle
        rcases List.mem_append.mp inMiddle with old | inNew
        · exact .inl old
        · exact .inr ⟨name, sub, by simp, before, value?, middle, new, first, split.symm, inNew⟩
      · exact .inr ⟨other, below, by simp [selected], new⟩

/-- What is spawned is brought by a record that is shown of one of the entities. -/
def FromRecords (context : RunContext) (database : Database) (getter : Getter) (ids : List String)
    (selector : Selector) (before after : RunState) : Prop :=
  ∀ target ∈ after.spawned, target ∈ before.spawned ∨
    ∃ id ∈ ids, ∃ record, database.Shows (getter.cls, id) record ∧
      Brings context getter record selector target

theorem FromRecords.trans {ids : List String} {selector : Selector}
    (first : FromRecords context database getter ids selector before middle)
    (second : FromRecords context database getter ids selector middle after) :
    FromRecords context database getter ids selector before after := by
  intro target member
  rcases second target member with inMiddle | brought
  · exact first target inMiddle
  · exact .inr brought

theorem FromRecords.of_eq {ids : List String} {selector : Selector}
    (same : after.spawned = before.spawned) :
    FromRecords context database getter ids selector before after :=
  fun _ member => .inl (same ▸ member)

theorem FromRecords.mono {ids more : List String} {selector : Selector} (fewer : ids ⊆ more)
    (found : FromRecords context database getter ids selector before after) :
    FromRecords context database getter more selector before after := by
  intro target member
  rcases found target member with old | ⟨id, inIds, brought⟩
  · exact .inl old
  · exact .inr ⟨id, fewer inIds, brought⟩

theorem fromRecords_load (getter : Getter) {id : String} {record : Json} {selector : Selector}
    {values : FieldValues} (shown : database.Shows (getter.cls, id) record)
    (done : Yields context (getter.fields.load getter.path getter.cls record selector) before values
      after) : FromRecords context database getter [id] selector before after := by
  intro target member
  rcases spawned_loadPickers done target member with old | ⟨name, sub, selected, new⟩
  · exact .inl old
  · exact .inr ⟨id, by simp, record, shown, name, sub, selected, new⟩

theorem fromRecords_single {method : SingleGetter} {ids : List String} {selector : Selector}
    (answered : (Getter.single method).AnsweredFrom database context.remote)
    {results : FetchResults}
    (done : Yields context (method.fetchAll selector ids) before results after) :
    FromRecords context database (.single method) ids selector before after := by
  induction ids generalizing before results with
  | nil =>
      obtain ⟨rfl, rfl⟩ := yields_pure_iff.mp done
      exact .of_eq rfl
  | cons id rest inductionHypothesis =>
      simp only [SingleGetter.fetchAll, SingleGetter.fetch, yields_bind_iff, yields_ofExcept_iff,
        yields_call_iff, yields_pure_iff] at done
      obtain ⟨outcome, middle, ⟨params, _, ⟨prepared, rfl⟩, reply, _, ⟨replied, rfl⟩, read⟩,
        others, _,
        remaining, rfl, rfl⟩ := done
      have later := (inductionHypothesis remaining).mono (List.subset_cons_self id rest)
      refine FromRecords.trans ?_ later
      split at read
      · obtain ⟨rfl, rfl⟩ := yields_pure_iff.mp read
        exact .of_eq rfl
      · rename_i response notNull
        simp only [yields_bind_iff, yields_pure_iff] at read
        obtain ⟨values, _, loaded, rfl, rfl⟩ := read
        have shown := (answered id selector params _ response
          (liftError_eq_ok_iff.mp prepared) replied.symm).resolve_left
          fun same => notNull (same ▸ rfl)
        have brought := fromRecords_load (.single method) shown loaded
        exact FromRecords.trans (.of_eq rfl) (brought.mono (by simp))
      · split at read
        · obtain ⟨rfl, rfl⟩ := yields_pure_iff.mp read
          exact .of_eq rfl
        · exact absurd read not_yields_throw

theorem fromRecords_keyed {method : BatchGetter} {ids : List String} {selector : Selector}
    {records : Json}
    (shown : ∀ id ∈ ids, ∀ key record, method.ids.key id = .ok key →
      records.member? key = some record →
      record = .null ∨ database.Shows (method.cls, id) record)
    {results : FetchResults}
    (done : Yields context (method.readKeyed selector records ids) before results after) :
    FromRecords context database (.batch method) ids selector before after := by
  induction ids generalizing before results with
  | nil =>
      obtain ⟨rfl, rfl⟩ := yields_pure_iff.mp done
      exact .of_eq rfl
  | cons id rest inductionHypothesis =>
      simp only [BatchGetter.readKeyed, yields_bind_iff, yields_ofExcept_iff] at done
      obtain ⟨key, _, ⟨keyed, rfl⟩, done⟩ := done
      have shownRest := fun other member => shown other (List.mem_cons_of_mem id member)
      have wider := List.subset_cons_self id rest
      split at done
      all_goals simp only [yields_bind_iff, yields_pure_iff] at done
      · obtain ⟨_, _, ⟨rfl, rfl⟩, others, _, remaining, rfl, rfl⟩ := done
        exact (inductionHypothesis shownRest remaining).mono wider
      · obtain ⟨_, _, ⟨rfl, rfl⟩, others, _, remaining, rfl, rfl⟩ := done
        exact (inductionHypothesis shownRest remaining).mono wider
      · rename_i record notNull found
        obtain ⟨values, _, loaded, _, _, ⟨rfl, rfl⟩, others, _, remaining, rfl, rfl⟩ := done
        have isShown := (shown id (by simp) key record (liftError_eq_ok_iff.mp keyed)
          found).resolve_left fun null => notNull (null ▸ rfl)
        have brought := fromRecords_load (.batch method) isShown loaded
        exact (brought.mono (by simp)).trans
          ((inductionHypothesis shownRest remaining).mono wider)

theorem fromRecords_listed {method : BatchGetter} {spec : IdSpec} {ids : List String}
    {selector : Selector} {records : List Json}
    (shown : ∀ record ∈ records, ∀ id ∈ ids, spec.load method.path record = .ok (some id) →
      database.Shows (method.cls, id) record)
    {found result : OrderedMap FieldValues}
    (done : Yields context (method.readRecords spec ids selector found records) before result
      after) :
    FromRecords context database (.batch method) ids selector before after := by
  induction records generalizing before found with
  | nil =>
      obtain ⟨rfl, rfl⟩ := yields_pure_iff.mp done
      exact .of_eq rfl
  | cons record rest inductionHypothesis =>
      have shownRest := fun other member => shown other (List.mem_cons_of_mem record member)
      simp only [BatchGetter.readRecords] at done
      split at done
      · exact inductionHypothesis shownRest done
      · simp only [yields_bind_iff, yields_ofExcept_iff] at done
        obtain ⟨id?, _, ⟨loadedId, rfl⟩, done⟩ := done
        cases id? with
        | none => exact inductionHypothesis shownRest done
        | some id =>
            simp only at done
            split at done
            · exact inductionHypothesis shownRest done
            · rename_i wanted
              simp only [yields_bind_iff] at done
              obtain ⟨values, middle, loaded, remaining⟩ := done
              have member : id ∈ ids := by
                simp only [Bool.or_eq_true, not_or, Bool.not_eq_true', Bool.not_eq_false] at wanted
                simpa using wanted.2
              have brought := fromRecords_load (.batch method)
                (shown record (by simp) id member loadedId) loaded
              exact (brought.mono (by simpa using member)).trans
                (inductionHypothesis shownRest remaining)

theorem readListed_cases {method : BatchGetter} {spec : IdSpec} {ids : List String}
    {selector : Selector}
    {response : Json} {results : FetchResults}
    (done : Yields context (method.readListed spec ids selector response) before results after) :
    ∃ records found, (response = .array records ∨ records = []) ∧
      Yields context (method.readRecords spec ids selector [] records) before found after ∧
      results = ids.map fun id => (id, .found ((found.get? id).getD
        (BatchGetter.nullValues context.catalog.schema method.cls selector))) := by
  unfold BatchGetter.readListed at done
  cases response with
  | null =>
      simp only [yields_bind_iff, yields_pure_iff, yields_schema_iff] at done
      obtain ⟨_, _, ⟨rfl, rfl⟩, found, _, read, _, _, ⟨rfl, rfl⟩, rfl, rfl⟩ := done
      exact ⟨[], found, .inr rfl, read, rfl⟩
  | array records =>
      simp only [yields_bind_iff, yields_pure_iff, yields_schema_iff] at done
      obtain ⟨_, _, ⟨rfl, rfl⟩, found, _, read, _, _, ⟨rfl, rfl⟩, rfl, rfl⟩ := done
      exact ⟨_, found, .inl rfl, read, rfl⟩
  | _ =>
      simp only [yields_bind_iff] at done
      obtain ⟨_, _, failed, _⟩ := done
      exact absurd failed not_yields_throw

theorem fromRecords_batch {method : BatchGetter} {ids : List String} {selector : Selector}
    (answered : (Getter.batch method).AnsweredFrom database context.remote)
    {results : FetchResults}
    (done : Yields context (method.fetchAll ids selector) before results after) :
    FromRecords context database (.batch method) ids selector before after := by
  simp only [BatchGetter.fetchAll, yields_bind_iff, yields_ofExcept_iff,
    yields_callOrFail_iff] at done
  obtain ⟨params, begun, ⟨prepared, rfl⟩, response, _, ⟨replied, rfl⟩, done⟩ := done
  have shown := answered ids selector params _ response (liftError_eq_ok_iff.mp prepared) replied
  have reached : FromRecords context database (.batch method) ids selector begun
      (called begun ⟨method.path, params⟩) := .of_eq rfl
  refine reached.trans ?_
  cases layout : method.layout with
  | listed spec =>
      simp only [layout] at shown done
      obtain ⟨records, found, listed, read, _⟩ := readListed_cases done
      refine fromRecords_listed ?_ read
      rcases listed with same | none
      · exact shown records same
      · simp [none]
  | keyed =>
      simp only [layout] at shown done
      split at done
      · exact fromRecords_keyed shown done
      · exact absurd done not_yields_throw

theorem fromRecords_fetch {candidacy : Candidacy}
    (answered : getter.AnsweredFrom database context.remote) {results : FetchResults}
    (done : Yields context (getter.fetch candidacy) before results after) :
    FromRecords context database getter candidacy.ids candidacy.selector before after := by
  cases getter with
  | single method => exact fromRecords_single answered done
  | batch method => exact fromRecords_batch answered done
  | table method =>
      simp only [Getter.fetch, TableGetter.fetchAll, yields_bind_iff, yields_callOrFail_iff,
        yields_pure_iff] at done
      obtain ⟨table, _, ⟨_, rfl⟩, rfl, rfl⟩ := done
      exact .of_eq rfl

end Run

end EntityResolver
