import EntityResolver.Proofs.Evaluation.Reading

/-!
What plain getters do to a run over fixed records: what they find is what the records say, and they
fail only where a record does.
-/

set_option autoImplicit false

namespace EntityResolver

/-- The getters are plain, agree on the pickers of fields, and are answered from the records. -/
structure Served (context : RunContext) (records : Records) : Prop where
  plain : ∀ getter ∈ context.catalog.getters, getter.IsPlain
  agrees : context.catalog.Agrees
  answered : ∀ getter ∈ context.catalog.getters, getter.AnsweredBy records context.remote

theorem target_of_readUnder {field : Field} {value? : Option Json}
    {read : Json → Option (FieldValue EntityKey)} {keys : FieldValue EntityKey}
    (each : ∀ value keys, read value = some keys →
      ∀ key ∈ keys.entities, field.kind.target? = some key.1)
    (found : readUnder field value? read = some keys) :
    ∀ key ∈ keys.entities, field.kind.target? = some key.1 := by
  unfold readUnder at found
  split at found
  · split at found
    · cases found
      intro key member
      cases member
    · cases found
  · exact each _ _ found

theorem Picker.target_of_read {picker : Picker} {lang : Lang} {field : Field} {record : Json}
    {keys : FieldValue EntityKey} (read : picker.read? lang field record = some keys) :
    ∀ key ∈ keys.entities, field.kind.target? = some key.1 := by
  unfold Picker.read? at read
  split at read
  · refine target_of_readUnder ?_ read
    intro value keys read key member
    obtain ⟨scalar, _, rfl⟩ := Option.map_eq_some_iff.mp read
    cases member
  · obtain ⟨cls, target, read⟩ := Option.bind_eq_some_iff.mp read
    obtain ⟨value, _, same⟩ := Option.bind_eq_some_iff.mp read
    cases same
    intro key member
    rw [Run.entities_oneEntity] at member
    split at member
    · cases member
    · cases List.mem_singleton.mp member
      exact target
  · refine target_of_readUnder ?_ read
    intro value keys read key member
    obtain ⟨cls, target, same⟩ := Option.bind_eq_some_iff.mp read
    split at same
    · cases same
      cases member
    · cases same
      obtain ⟨id, _, rfl⟩ := List.mem_map.mp member
      exact target
    · cases same
  · refine target_of_readUnder ?_ read
    intro value keys read key member
    obtain ⟨cls, target, same⟩ := Option.bind_eq_some_iff.mp read
    split at same
    · cases same
      cases member
    · cases same
      simp only [FieldValue.entities, List.map_map] at member
      obtain ⟨entry, _, rfl⟩ := List.mem_map.mp member
      exact target
    · cases same
  · cases read

namespace Records

variable {records : Records} {context : RunContext} {cls : ClassId} {id name : String}

theorem read_eq_some_iff {keys : FieldValue EntityKey} :
    records.read? context (cls, id) name = some keys ↔
      ∃ members, records.find? (cls, id) = some members ∧
        ∃ field, context.catalog.schema.field? cls name = some field ∧
          ∃ picker, context.catalog.picker? cls name = some picker ∧
            picker.read? context.lang field (.object members) = some keys := by
  simp only [read?, Option.bind_eq_bind, Option.bind_eq_some_iff]

theorem read_kept {field : Field} {keys : FieldValue EntityKey}
    (found : context.catalog.schema.field? cls name = some field)
    (read : records.read? context (cls, id) name = some keys) :
    keys.mapEntities (fun key =>
      (field.kind.target?.getD cls, if field.kind.isEntity then key.2 else "")) = keys := by
  obtain ⟨_, _, _, foundToo, _, _, readToo⟩ := read_eq_some_iff.mp read
  cases found.symm.trans foundToo
  apply FieldValue.mapEntities_eq_self
  intro key member
  have target := Picker.target_of_read readToo key member
  simp [FieldKind.isEntity, target]

theorem Absent.wider {selector other : Selector}
    (absent : records.Absent context (cls, id) selector)
    (more : selector.names ⊆ other.names) : records.Absent context (cls, id) other := by
  obtain ⟨none, name, member, supplied⟩ := absent
  exact ⟨none, name, more member, supplied⟩

def truth (records : Records) (context : RunContext) : Truth context.catalog.schema where
  holds cls id name keys := records.read? context (cls, id) name = some keys
  lacks cls id selector := records.Absent context (cls, id) selector
  wider := Absent.wider
  kept found read := (read_kept found read).symm ▸ read

end Records

open Run

variable {context : RunContext} {records : Records} {before after : RunState}
variable {live : List Target} {sub selector : Selector} {cls : ClassId} {id name : String}

theorem succeeds_spawnKeys (keys : FieldValue EntityKey) (sub : Selector) (state : RunState) :
    Succeeds context (keys.traverseEntities (spawnKey sub)) state :=
  succeeds_traverseEntities
    (fun _ _ => ⟨_, _, yields_spawn_nil_iff.mpr ⟨rfl, rfl⟩⟩) keys state

def Knows (records : Records) (context : RunContext) (live : List Target) (state : RunState) :
    Prop :=
  Sound (records.truth context) (state.spawned ++ live) state

theorem Knows.spawnKeys {keys : FieldValue EntityKey} {value : FieldValue Handle}
    (knows : Knows records context live before) (distinct : sub.Distinct)
    (done : Yields context (keys.traverseEntities (spawnKey sub)) before value after) :
    Knows records context live after ∧ before.Keeps after ∧ value.Rel (after.Stands sub) keys := by
  have each {key : EntityKey} {before : RunState} {entity : Handle} {after : RunState}
      (knows : Knows records context live before)
      (done : Yields context (spawnKey sub key) before entity after) :
      Knows records context live after ∧ before.Keeps after ∧ after.Stands sub entity key := by
    obtain ⟨knowsAfter, keeps, member⟩ :=
      sounding.enlisted (records.truth context) live knows distinct (by simp [Carries]) done
    exact ⟨knowsAfter, keeps, .inl ⟨_, member, rfl, rfl, rfl, Selector.same_refl distinct⟩⟩
  obtain ⟨knowsAfter, keeps, same⟩ := yields_traverseEntities (Knows records context live)
    RunState.Keeps (fun state key entity => state.Stands sub entity key) .refl .trans
    (fun keeps stands => stands.mono keeps) (fun _ => each) knows done
  exact ⟨knowsAfter, keeps, same.symm⟩

theorem FieldPickers.exists_of_mem_names :
    ∀ {fields : FieldPickers}, name ∈ fields.names → ∃ picker, fields.find? name = some picker
  | .none, member => nomatch member
  | .field other picker rest, member => by
      rw [find?]
      split
      · exact ⟨picker, rfl⟩
      · rename_i differs
        rcases List.mem_cons.mp member with same | inRest
        · exact absurd same.symm differs
        · exact exists_of_mem_names inRest

theorem FieldPickers.yields_loadField_iff {path : String} {response : Json}
    {value? : Option (FieldValue Handle)} {picker : Picker} (proper : response.IsProper) :
    ∀ {fields : FieldPickers}, fields.arePlain = true → fields.find? name = some picker →
      (Yields context (fields.loadField path cls response name sub) before value? after ↔
        ∃ field, context.catalog.schema.field? cls name = some field ∧
          ∃ keys, picker.read? context.lang field response = some keys ∧ ∃ value,
            value? = some value ∧
              Yields context (keys.traverseEntities (spawnKey sub)) before value after)
  | .none, _, found => nomatch found
  | .field other own rest, plain, found => by
      obtain ⟨first, others⟩ := Bool.and_eq_true_iff.mp plain
      rw [find?] at found
      rw [loadField]
      split at found
      · rename_i same
        cases found
        rw [if_pos same]
        simp only [yields_bind_iff, yields_schema_iff]
        constructor
        · rintro ⟨_, _, ⟨rfl, rfl⟩, done⟩
          split at done
          · exact absurd done not_yields_throw
          · rename_i field known
            simp only [yields_bind_iff, yields_pure_iff] at done
            obtain ⟨value, _, loaded, rfl, rfl⟩ := done
            obtain ⟨keys, read, spawned⟩ := (Picker.yields_load_iff first proper).mp loaded
            exact ⟨field, known, keys, read, value, rfl, spawned⟩
        · rintro ⟨field, known, keys, read, value, rfl, spawned⟩
          refine ⟨_, _, ⟨rfl, rfl⟩, ?_⟩
          simp only [known, yields_bind_iff, yields_pure_iff]
          exact ⟨value, _, (Picker.yields_load_iff first proper).mpr ⟨keys, read, spawned⟩,
            rfl, rfl⟩
      · rename_i differs
        rw [if_neg differs]
        exact yields_loadField_iff proper others found

namespace Served

variable {getter : Getter} {members : OrderedMap Json}

theorem arePlain (served : Served context records)
    (offers : getter ∈ context.catalog.gettersOf cls) : getter.fields.arePlain = true := by
  have plain := served.plain getter (List.mem_of_mem_filter offers)
  cases getter with
  | single method => exact plain.2
  | batch method => exact plain.2.2
  | table method => exact plain.elim

theorem picker_eq (served : Served context records)
    (offers : getter ∈ context.catalog.gettersOf cls) {picker : Picker}
    (found : getter.fields.find? name = some picker) :
    context.catalog.picker? cls name = some picker := by
  cases first : context.catalog.picker? cls name with
  | none =>
      have nowhere := List.findSome?_eq_none_iff.mp first getter offers
      rw [found] at nowhere
      cases nowhere
  | some other =>
      obtain ⟨one, member, foundToo⟩ := List.exists_of_findSome?_eq_some first
      rw [served.agrees cls one member getter offers name other picker foundToo found]

theorem isProper (records : Records) {key : EntityKey}
    (found : records.find? key = some members) : (Json.object members).IsProper := by
  intro name inner stored
  exact records.distinct found (OrderedMap.mem_of_get? stored)

theorem yields_loadField_iff (served : Served context records)
    (offers : getter ∈ context.catalog.gettersOf cls)
    (found : records.find? (cls, id) = some members) (supplied : name ∈ getter.fields.names)
    {value? : Option (FieldValue Handle)} :
    Yields context (getter.fields.loadField getter.path cls (.object members) name sub) before value?
        after ↔
      ∃ keys, records.read? context (cls, id) name = some keys ∧ ∃ value, value? = some value ∧
        Yields context (keys.traverseEntities (spawnKey sub)) before value after := by
  obtain ⟨picker, own⟩ := FieldPickers.exists_of_mem_names supplied
  have same := served.picker_eq offers own
  rw [FieldPickers.yields_loadField_iff (isProper records found) (served.arePlain offers) own]
  simp only [Records.read_eq_some_iff]
  constructor
  · rintro ⟨field, known, keys, read, loaded⟩
    exact ⟨keys, ⟨members, found, field, known, picker, same, read⟩, loaded⟩
  · rintro ⟨keys, ⟨_, foundToo, field, known, _, sameToo, read⟩, loaded⟩
    cases found.symm.trans foundToo
    cases same.symm.trans sameToo
    exact ⟨field, known, keys, read, loaded⟩

end Served

/-- The values are those that the record of an entity has for the fields, in order. -/
def Tells (records : Records) (context : RunContext) (state : RunState) (key : EntityKey)
    (fields : List (String × Selector)) (values : FieldValues) : Prop :=
  List.Forall₂ (fun entry stored => stored.1 = entry.1 ∧
    ∃ keys, records.read? context key entry.1 = some keys ∧
      stored.2.Rel (state.Stands entry.2) keys) fields values

theorem Tells.mono {key : EntityKey} {fields : List (String × Selector)} {values : FieldValues}
    (keeps : before.Keeps after) (tells : Tells records context before key fields values) :
    Tells records context after key fields values := by
  apply List.Forall₂.imp _ tells
  rintro entry stored ⟨named, keys, read, same⟩
  exact ⟨named, keys, read, same.mono fun _ _ _ stands => stands.mono keeps⟩

namespace Served

variable {getter : Getter} {members : OrderedMap Json} {fields : List (String × Selector)}

theorem loadSelected (served : Served context records)
    (offers : getter ∈ context.catalog.gettersOf cls)
    (found : records.find? (cls, id) = some members)
    (supplied : ∀ entry ∈ fields, entry.1 ∈ getter.fields.names)
    (distinct : ∀ entry ∈ fields, entry.2.Distinct) (knows : Knows records context live before)
    {values : FieldValues}
    (done : Yields context
      (Run.loadSelected (getter.fields.loadField getter.path) cls (.object members) fields) before
        values after) :
    Knows records context live after ∧ before.Keeps after ∧
      Tells records context after (cls, id) fields values := by
  induction fields generalizing before values with
  | nil =>
      obtain ⟨rfl, rfl⟩ := yields_pure_iff.mp done
      exact ⟨knows, .refl _, .nil⟩
  | cons entry rest inductionHypothesis =>
      obtain ⟨name, sub⟩ := entry
      simp only [Run.loadSelected, yields_bind_iff, yields_pure_iff] at done
      obtain ⟨value?, middle, first, others, _, remaining, rfl, rfl⟩ := done
      have here := supplied (name, sub) List.mem_cons_self
      obtain ⟨keys, read, value, rfl, spawned⟩ :=
        (served.yields_loadField_iff offers found here).mp first
      obtain ⟨knowsMiddle, keeps, same⟩ :=
        knows.spawnKeys (distinct (name, sub) List.mem_cons_self) spawned
      obtain ⟨knowsAfter, keepsToo, tells⟩ := inductionHypothesis
        (fun entry member => supplied entry (List.mem_cons_of_mem _ member))
        (fun entry member => distinct entry (List.mem_cons_of_mem _ member)) knowsMiddle remaining
      refine ⟨knowsAfter, keeps.trans keepsToo, .cons ⟨rfl, keys, read, ?_⟩ tells⟩
      exact same.mono fun _ _ _ stands => stands.mono keepsToo

theorem succeeds_loadSelected (served : Served context records)
    (offers : getter ∈ context.catalog.gettersOf cls)
    (found : records.find? (cls, id) = some members)
    (supplied : ∀ entry ∈ fields, entry.1 ∈ getter.fields.names)
    (readable : ∀ entry ∈ fields, ∃ keys, records.read? context (cls, id) entry.1 = some keys)
    (state : RunState) :
    Succeeds context
      (Run.loadSelected (getter.fields.loadField getter.path) cls (.object members) fields)
        state := by
  induction fields generalizing state with
  | nil => exact ⟨_, _, yields_pure_iff.mpr ⟨rfl, rfl⟩⟩
  | cons entry rest inductionHypothesis =>
      obtain ⟨name, sub⟩ := entry
      obtain ⟨keys, read⟩ := readable (name, sub) List.mem_cons_self
      obtain ⟨value, middle, spawned⟩ := succeeds_spawnKeys keys sub state
      have here := supplied (name, sub) List.mem_cons_self
      have first := (served.yields_loadField_iff offers found here).mpr
        ⟨keys, read, value, rfl, spawned⟩
      obtain ⟨others, after, remaining⟩ := inductionHypothesis
        (fun entry member => supplied entry (List.mem_cons_of_mem _ member))
        (fun entry member => readable entry (List.mem_cons_of_mem _ member)) middle
      apply succeeds_bind first
      apply succeeds_bind remaining
      exact ⟨_, _, yields_pure_iff.mpr ⟨rfl, rfl⟩⟩

end Served

def Says (records : Records) (context : RunContext) (state : RunState) (key : EntityKey)
    (selector : Selector) : FetchOutcome → Prop
  | .found values => ∃ members, records.find? key = some members ∧
      Tells records context state key selector.resolved values
  | .absent => records.find? key = none

theorem Says.mono {key : EntityKey} {outcome : FetchOutcome} (keeps : before.Keeps after)
    (told : Says records context before key selector outcome) :
    Says records context after key selector outcome := by
  cases outcome with
  | absent => exact told
  | found values =>
      obtain ⟨members, found, tells⟩ := told
      exact ⟨members, found, tells.mono keeps⟩

/-- What a fetch says of entities is what the records say of each of them. -/
def SaysAll (records : Records) (context : RunContext) (state : RunState) (cls : ClassId)
    (selector : Selector) (ids : List String) (results : FetchResults) : Prop :=
  List.Forall₂ (fun id result => result.1 = id ∧
    Says records context state (cls, id) selector result.2) ids results

/-- All fields of the selector can be read out of the record of the entity, if there is one. -/
def Readable (records : Records) (context : RunContext) (key : EntityKey) (selector : Selector) :
    Prop :=
  ∀ members, records.find? key = some members → ∀ entry ∈ selector.resolved,
    ∃ keys, records.read? context key entry.1 = some keys

theorem Knows.called (knows : Knows records context live before) (request : Call) :
    Knows records context live (Run.called before request) ∧
      before.Keeps (Run.called before request) :=
  Sound.frame knows _ _ _ _ _ _

def Retrieves (records : Records) (context : RunContext) (getter : Getter) (cls : ClassId)
    (id : String) (selector : Selector) (before : RunState) (outcome : FetchOutcome)
    (after : RunState) : Prop :=
  match records.find? (cls, id) with
  | none => outcome = .absent ∧ after = before
  | some members => ∃ values, outcome = .found values ∧ Yields context
      (Run.loadSelected (getter.fields.loadField getter.path) cls (.object members)
        selector.resolved) before values after

/-- The object holds the record of the entity under its id, or nothing. -/
def HoldsRecord (records : Records) (cls : ClassId) (answer : OrderedMap Json) (id : String) :
    Prop :=
  match records.find? (cls, id) with
  | some record => OrderedMap.get? answer id = some (.object record)
  | none => OrderedMap.get? answer id = none ∨ OrderedMap.get? answer id = some .null

def readUnderId (batch : BatchGetter) (selector : Selector) : Option Json → Run FetchOutcome
  | none | some .null => pure .absent
  | some record => do
      return .found (← batch.pickers.load batch.path batch.cls record selector)

namespace Served

variable {getter : Getter} {single : SingleGetter} {batch : BatchGetter} {ids : List String}

theorem cls_eq (offers : getter ∈ context.catalog.gettersOf cls) : getter.cls = cls := by
  have same := List.of_mem_filter offers
  simpa using same

theorem retrieves (served : Served context records)
    (offers : getter ∈ context.catalog.gettersOf cls)
    (supplied : ∀ entry ∈ selector.resolved, entry.1 ∈ getter.fields.names)
    (distinct : selector.Distinct) (knows : Knows records context live before)
    {outcome : FetchOutcome}
    (done : Retrieves records context getter cls id selector before outcome after) :
    Knows records context live after ∧ before.Keeps after ∧
      Says records context after (cls, id) selector outcome := by
  unfold Retrieves at done
  split at done
  · rename_i none
    obtain ⟨rfl, rfl⟩ := done
    exact ⟨knows, .refl _, none⟩
  · rename_i members found
    obtain ⟨values, rfl, loaded⟩ := done
    obtain ⟨knowsAfter, keeps, tells⟩ := served.loadSelected offers found supplied
      (fun entry member => distinct.of_mem_resolved member) knows loaded
    exact ⟨knowsAfter, keeps, members, found, tells⟩

theorem exists_retrieves (served : Served context records)
    (offers : getter ∈ context.catalog.gettersOf cls)
    (supplied : ∀ entry ∈ selector.resolved, entry.1 ∈ getter.fields.names)
    (readable : Readable records context (cls, id) selector) (state : RunState) :
    ∃ outcome after, Retrieves records context getter cls id selector state outcome after := by
  unfold Retrieves
  cases found : records.find? (cls, id) with
  | none => exact ⟨_, _, rfl, rfl⟩
  | some members =>
      obtain ⟨values, after, loaded⟩ :=
        served.succeeds_loadSelected offers found supplied (readable members found) state
      exact ⟨_, after, values, rfl, loaded⟩

theorem yields_single_iff (served : Served context records)
    (offers : .single single ∈ context.catalog.gettersOf cls) {outcome : FetchOutcome} :
    Yields context (single.fetch id selector) before outcome after ↔
      ∃ params, single.params id selector = .ok params ∧
        Retrieves records context (.single single) cls id selector
          (Run.called before ⟨single.path, params⟩) outcome after := by
  have sameClass : single.cls = cls := cls_eq offers
  have answered := served.answered _ (List.mem_of_mem_filter offers)
  subst sameClass
  simp only [SingleGetter.fetch, yields_ofExcept_bind_iff, liftError_eq_ok_iff]
  refine exists_congr fun params => and_congr_right fun prepared => ?_
  simp only [yields_bind_iff, yields_call_iff, answered id selector params _ prepared, Retrieves]
  cases records.find? (single.cls, id) with
  | none =>
      constructor
      · rintro ⟨_, _, ⟨rfl, rfl⟩, done⟩
        exact yields_pure_iff.mp done
      · rintro ⟨rfl, rfl⟩
        exact ⟨_, _, ⟨rfl, rfl⟩, yields_pure_iff.mpr ⟨rfl, rfl⟩⟩
  | some members =>
      constructor
      · rintro ⟨_, _, ⟨rfl, rfl⟩, done⟩
        obtain ⟨values, _, loaded, same⟩ := yields_bind_iff.mp done
        obtain ⟨rfl, rfl⟩ := yields_pure_iff.mp same
        exact ⟨values, rfl, loaded⟩
      · rintro ⟨values, rfl, loaded⟩
        exact ⟨_, _, ⟨rfl, rfl⟩,
          yields_bind_iff.mpr ⟨values, _, loaded, yields_pure_iff.mpr ⟨rfl, rfl⟩⟩⟩

theorem single_fetchAll (served : Served context records)
    (offers : .single single ∈ context.catalog.gettersOf cls)
    (supplied : ∀ entry ∈ selector.resolved, entry.1 ∈ single.pickers.names)
    (distinct : selector.Distinct) (knows : Knows records context live before)
    {results : FetchResults}
    (done : Yields context (single.fetchAll selector ids) before results after) :
    Knows records context live after ∧ before.Keeps after ∧
      SaysAll records context after cls selector ids results := by
  induction ids generalizing before results with
  | nil =>
      obtain ⟨rfl, rfl⟩ := yields_pure_iff.mp done
      exact ⟨knows, .refl _, .nil⟩
  | cons id rest inductionHypothesis =>
      simp only [SingleGetter.fetchAll, yields_bind_iff, yields_pure_iff] at done
      obtain ⟨outcome, middle, first, others, _, remaining, rfl, rfl⟩ := done
      obtain ⟨params, _, read⟩ := (served.yields_single_iff offers).mp first
      obtain ⟨knowsCalled, called⟩ := knows.called ⟨single.path, params⟩
      obtain ⟨knowsMiddle, keeps, told⟩ :=
        served.retrieves offers supplied distinct knowsCalled read
      obtain ⟨knowsAfter, keepsToo, toldRest⟩ := inductionHypothesis knowsMiddle remaining
      exact ⟨knowsAfter, (called.trans keeps).trans keepsToo,
        .cons ⟨rfl, told.mono keepsToo⟩ toldRest⟩

theorem succeeds_single (served : Served context records)
    (offers : .single single ∈ context.catalog.gettersOf cls)
    (supplied : ∀ entry ∈ selector.resolved, entry.1 ∈ single.pickers.names)
    (readable : ∀ id ∈ ids, Readable records context (cls, id) selector) (state : RunState) :
    Succeeds context (single.fetchAll selector ids) state := by
  induction ids generalizing state with
  | nil => exact ⟨_, _, yields_pure_iff.mpr ⟨rfl, rfl⟩⟩
  | cons id rest inductionHypothesis =>
      obtain ⟨⟨key, elementary⟩, _⟩ := served.plain _ (List.mem_of_mem_filter offers)
      have prepared : ∃ params, single.params id selector = .ok params := by
        simp only [SingleGetter.params, elementary, IdSpec.setParams]
        exact ⟨_, rfl⟩
      obtain ⟨params, prepared⟩ := prepared
      obtain ⟨outcome, middle, read⟩ := served.exists_retrieves offers supplied
        (readable id List.mem_cons_self) (Run.called state ⟨single.path, params⟩)
      have first := (served.yields_single_iff offers).mpr ⟨params, prepared, read⟩
      obtain ⟨others, after, remaining⟩ := inductionHypothesis
        (fun other member => readable other (List.mem_cons_of_mem _ member)) middle
      apply succeeds_bind first
      apply succeeds_bind remaining
      exact ⟨_, _, yields_pure_iff.mpr ⟨rfl, rfl⟩⟩

theorem keysOf_elementary (param : String) (ids : List String) :
    (IdListSpec.elementary param).keysOf ids = .ok ids := by
  induction ids with
  | nil => rfl
  | cons id rest inductionHypothesis =>
      rw [IdListSpec.keysOf, inductionHypothesis]
      rfl

theorem readKeyed_cons (batch : BatchGetter) (selector : Selector) (answer : Json) (id : String)
    (ids : List String) : batch.readKeyed selector answer (id :: ids) = (do
      let key ← ofExcept (liftError .value (batch.ids.key id))
      let outcome ← readUnderId batch selector (answer.member? key)
      let results ← batch.readKeyed selector answer ids
      return (id, outcome) :: results) := by
  rw [BatchGetter.readKeyed]
  apply bind_congr
  intro key
  cases answer.member? key with
  | none => rfl
  | some record => cases record <;> simp [readUnderId]

theorem yields_keyed_iff (served : Served context records)
    (offers : .batch batch ∈ context.catalog.gettersOf cls) {answer : OrderedMap Json}
    (holds : HoldsRecord records cls answer id) {results : FetchResults} :
    Yields context (batch.readKeyed selector (.object answer) (id :: ids)) before results after ↔
      ∃ outcome middle,
        Retrieves records context (.batch batch) cls id selector before outcome middle ∧
        ∃ others, Yields context (batch.readKeyed selector (.object answer) ids) middle others
          after ∧ results = (id, outcome) :: others := by
  have sameClass : batch.cls = cls := cls_eq offers
  obtain ⟨⟨param, elementary⟩, _⟩ := served.plain _ (List.mem_of_mem_filter offers)
  subst sameClass
  have key : batch.ids.key id = .ok id := by rw [elementary]; rfl
  have retrieves {outcome : FetchOutcome} {middle : RunState} :
      Yields context (readUnderId batch selector (OrderedMap.get? answer id)) before outcome
        middle ↔
      Retrieves records context (.batch batch) batch.cls id selector before outcome middle := by
    unfold HoldsRecord at holds
    unfold Retrieves
    cases found : records.find? (batch.cls, id) with
    | none =>
        simp only [found] at holds
        rcases holds with none | null
        · rw [none]
          exact yields_pure_iff
        · rw [null]
          exact yields_pure_iff
    | some members =>
        simp only [found] at holds
        rw [holds]
        simp only [readUnderId, yields_bind_iff, yields_pure_iff]
        constructor
        · rintro ⟨values, _, loaded, rfl, rfl⟩
          exact ⟨values, rfl, loaded⟩
        · rintro ⟨values, rfl, loaded⟩
          exact ⟨values, _, loaded, rfl, rfl⟩
  rw [readKeyed_cons, yields_ofExcept_bind_iff]
  simp only [liftError_eq_ok_iff, key, Except.ok.injEq, exists_eq_left', Json.member?,
    yields_bind_iff, yields_pure_iff, retrieves]
  constructor
  · rintro ⟨outcome, middle, read, others, _, remaining, rfl, rfl⟩
    exact ⟨outcome, middle, read, others, remaining, rfl⟩
  · rintro ⟨outcome, middle, read, others, remaining, rfl⟩
    exact ⟨outcome, middle, read, others, _, remaining, rfl, rfl⟩

theorem keyed (served : Served context records)
    (offers : .batch batch ∈ context.catalog.gettersOf cls) {answer : OrderedMap Json}
    (supplied : ∀ entry ∈ selector.resolved, entry.1 ∈ batch.pickers.names)
    (distinct : selector.Distinct) (holds : ∀ id ∈ ids, HoldsRecord records cls answer id)
    (knows : Knows records context live before) {results : FetchResults}
    (done : Yields context (batch.readKeyed selector (.object answer) ids) before results after) :
    Knows records context live after ∧ before.Keeps after ∧
      SaysAll records context after cls selector ids results := by
  induction ids generalizing before results with
  | nil =>
      obtain ⟨rfl, rfl⟩ := yields_pure_iff.mp done
      exact ⟨knows, .refl _, .nil⟩
  | cons id rest inductionHypothesis =>
      obtain ⟨outcome, middle, read, others, remaining, rfl⟩ :=
        (served.yields_keyed_iff offers (holds id List.mem_cons_self)).mp done
      obtain ⟨knowsMiddle, keeps, told⟩ := served.retrieves offers supplied distinct knows read
      obtain ⟨knowsAfter, keepsToo, toldRest⟩ := inductionHypothesis
        (fun other member => holds other (List.mem_cons_of_mem _ member)) knowsMiddle remaining
      exact ⟨knowsAfter, keeps.trans keepsToo, .cons ⟨rfl, told.mono keepsToo⟩ toldRest⟩

theorem succeeds_keyed (served : Served context records)
    (offers : .batch batch ∈ context.catalog.gettersOf cls) {answer : OrderedMap Json}
    (supplied : ∀ entry ∈ selector.resolved, entry.1 ∈ batch.pickers.names)
    (readable : ∀ id ∈ ids, Readable records context (cls, id) selector)
    (holds : ∀ id ∈ ids, HoldsRecord records cls answer id) (state : RunState) :
    Succeeds context (batch.readKeyed selector (.object answer) ids) state := by
  induction ids generalizing state with
  | nil => exact ⟨_, _, yields_pure_iff.mpr ⟨rfl, rfl⟩⟩
  | cons id rest inductionHypothesis =>
      obtain ⟨outcome, middle, read⟩ := served.exists_retrieves offers supplied
        (readable id List.mem_cons_self) state
      obtain ⟨others, after, remaining⟩ := inductionHypothesis
        (fun other member => readable other (List.mem_cons_of_mem _ member))
        (fun other member => holds other (List.mem_cons_of_mem _ member)) middle
      exact ⟨_, after, (served.yields_keyed_iff offers (holds id List.mem_cons_self)).mpr
        ⟨outcome, middle, read, others, remaining, rfl⟩⟩

theorem batch_fetchAll (served : Served context records)
    (offers : .batch batch ∈ context.catalog.gettersOf cls)
    (supplied : ∀ entry ∈ selector.resolved, entry.1 ∈ batch.pickers.names)
    (distinct : selector.Distinct) (knows : Knows records context live before)
    {results : FetchResults}
    (done : Yields context (batch.fetchAll ids selector) before results after) :
    Knows records context live after ∧ before.Keeps after ∧
      SaysAll records context after cls selector ids results := by
  have sameClass : batch.cls = cls := cls_eq offers
  obtain ⟨_, keyed, _⟩ := served.plain _ (List.mem_of_mem_filter offers)
  have answered := served.answered _ (List.mem_of_mem_filter offers)
  simp only [BatchGetter.fetchAll, yields_ofExcept_bind_iff, liftError_eq_ok_iff] at done
  obtain ⟨params, prepared, done⟩ := done
  obtain ⟨answer, replied, holds⟩ := answered ids selector params before.calls prepared
  obtain ⟨response, _, called, done⟩ := yields_bind_iff.mp done
  obtain ⟨repliedToo, rfl⟩ := yields_callOrFail_iff.mp called
  cases repliedToo.symm.trans replied
  simp only [keyed] at done
  obtain ⟨knowsCalled, later⟩ := knows.called ⟨batch.path, params⟩
  subst sameClass
  obtain ⟨knowsAfter, keeps, told⟩ :=
    served.keyed offers supplied distinct holds knowsCalled done
  exact ⟨knowsAfter, later.trans keeps, told⟩

theorem succeeds_batch (served : Served context records)
    (offers : .batch batch ∈ context.catalog.gettersOf cls)
    (supplied : ∀ entry ∈ selector.resolved, entry.1 ∈ batch.pickers.names)
    (readable : ∀ id ∈ ids, Readable records context (cls, id) selector) (state : RunState) :
    Succeeds context (batch.fetchAll ids selector) state := by
  have sameClass : batch.cls = cls := cls_eq offers
  obtain ⟨⟨param, elementary⟩, keyed, _⟩ := served.plain _ (List.mem_of_mem_filter offers)
  have prepared : ∃ params, batch.params ids selector = .ok params := by
    simp only [BatchGetter.params, elementary, IdListSpec.setParams, keysOf_elementary]
    exact ⟨_, rfl⟩
  obtain ⟨params, prepared⟩ := prepared
  obtain ⟨answer, replied, holds⟩ :=
    served.answered _ (List.mem_of_mem_filter offers) ids selector params state.calls prepared
  subst sameClass
  obtain ⟨results, after, read⟩ :=
    served.succeeds_keyed offers supplied readable holds (Run.called state ⟨batch.path, params⟩)
  refine ⟨results, after, ?_⟩
  simp only [BatchGetter.fetchAll, yields_ofExcept_bind_iff, liftError_eq_ok_iff]
  refine ⟨params, prepared, ?_⟩
  refine yields_bind_iff.mpr ⟨_, _, yields_callOrFail_iff.mpr ⟨replied, rfl⟩, ?_⟩
  simp only [keyed]
  exact read

theorem fields_of_supplied (served : Served context records)
    (offers : getter ∈ context.catalog.gettersOf cls)
    (supplied : selector.names ⊆ getter.supplied) :
    ∀ entry ∈ selector.resolved, entry.1 ∈ getter.fields.names := by
  intro entry member
  have inSupplied := supplied (Selector.mem_names_of_mem_resolved member)
  cases getter with
  | single method => exact inSupplied
  | batch method => exact inSupplied
  | table method => exact (served.plain _ (List.mem_of_mem_filter offers)).elim

theorem fetch (served : Served context records) (offers : getter ∈ context.catalog.gettersOf cls)
    {candidacy : Candidacy} (supplied : candidacy.selector.names ⊆ getter.supplied)
    (distinct : candidacy.selector.Distinct) (knows : Knows records context live before)
    {results : FetchResults}
    (done : Yields context (getter.fetch candidacy) before results after) :
    Knows records context live after ∧ before.Keeps after ∧
      SaysAll records context after cls candidacy.selector candidacy.ids results := by
  have fields := served.fields_of_supplied offers supplied
  cases getter with
  | single method => exact served.single_fetchAll offers fields distinct knows done
  | batch method => exact served.batch_fetchAll offers fields distinct knows done
  | table method => exact (served.plain _ (List.mem_of_mem_filter offers)).elim

theorem succeeds_fetch (served : Served context records)
    (offers : getter ∈ context.catalog.gettersOf cls) {candidacy : Candidacy}
    (supplied : candidacy.selector.names ⊆ getter.supplied)
    (readable : ∀ id ∈ candidacy.ids, Readable records context (cls, id) candidacy.selector)
    (state : RunState) : Succeeds context (getter.fetch candidacy) state := by
  have fields := served.fields_of_supplied offers supplied
  cases getter with
  | single method => exact served.succeeds_single offers fields readable state
  | batch method => exact served.succeeds_batch offers fields readable state
  | table method => exact (served.plain _ (List.mem_of_mem_filter offers)).elim

end Served

theorem SaysAll.exists_says {ids : List String} {results : FetchResults}
    (told : SaysAll records context before cls selector ids results) (asked : id ∈ ids) :
    ∃ outcome, results.get? id = some outcome ∧
      Says records context before (cls, id) selector outcome := by
  induction told with
  | nil => cases asked
  | @cons other result _ _ first _ inductionHypothesis =>
      obtain ⟨name, outcome⟩ := result
      obtain ⟨rfl, says_⟩ := first
      rw [OrderedMap.get?_cons]
      by_cases same : name = id
      · subst same
        exact ⟨outcome, if_pos rfl, says_⟩
      · rw [if_neg same]
        apply inductionHypothesis
        exact (List.mem_cons.mp asked).resolve_left fun equal => same equal.symm

theorem Says.answers {outcome : FetchOutcome}
    (told : Says records context before (cls, id) selector outcome)
    (supplied : ∃ name ∈ selector.names, (context.catalog.picker? cls name).isSome) :
    Answers (records.truth context) before (cls, id) selector (some outcome) := by
  cases outcome with
  | absent => exact ⟨told, supplied⟩
  | found values =>
      obtain ⟨_, _, tells⟩ := told
      intro name value member
      obtain ⟨entry, selected, rfl, keys, read, same⟩ :=
        FieldValue.exists_related tells.flip member
      exact ⟨entry.2, selected, keys, read, same⟩

theorem Served.faithful (served : Served context records) :
    Faithful context (records.truth context) where
  direct getter member := by
    have plain := served.plain getter member
    cases getter with
    | single method => exact .inl (FieldPickers.areDirect_of_arePlain plain.2)
    | batch method => exact .inl (FieldPickers.areDirect_of_arePlain plain.2.2)
    | table method => exact plain.elim
  answers := by
    intro cls getter candidacy live before results after offers distinct selected supplied sound
      done id asked
    obtain ⟨_, _, told⟩ := served.fetch offers supplied distinct sound done
    obtain ⟨outcome, found, says_⟩ := told.exists_says asked
    rw [found]
    apply says_.answers
    obtain ⟨name, member⟩ := List.exists_mem_of_ne_nil _ selected
    obtain ⟨sub, resolved⟩ := Selector.exists_mem_resolved member
    have inFields := served.fields_of_supplied offers supplied _ resolved
    obtain ⟨picker, own⟩ := FieldPickers.exists_of_mem_names inFields
    refine ⟨name, member, ?_⟩
    rw [served.picker_eq offers own]
    rfl

end EntityResolver
