import EntityResolver.Proofs.Run.Members
import EntityResolver.Proofs.Value.Matched

/-!
# Ancestors

A response holds the ancestors of an entity as a path, the farthest first. If they are asked for all
the way up, the path becomes a chain of entities in which each refers to the one before it, and
nothing is left to be fetched of the chain itself. If only the nearest one is asked for, the last
item of the path is taken, with an id or not.
-/

set_option autoImplicit false

namespace EntityResolver

namespace Run

open RunState

variable {context : RunContext} {origin before after final : RunState} {plan : ListPlan}
variable {fields : FieldPickers} {around response : Json} {selector : Selector}
variable {values : FieldValues} {path name : String} {cls : ClassId}

/-- Reads the values of an item of a path, whose field refers to a parent. -/
def readBelow (plan : ListPlan) (fields : FieldPickers) (around : Json)
    (parent : FieldValue Handle) (item : Json) : Run FieldValues := do
  let values ← fields.load plan.path plan.cls (liftInto plan.lifts around item) plan.sub
  return values.set plan.field.name parent

/-- Followed through the field, a value leads up through one entity for each row and no further. An
entity has the id of its row and the values that its pickers supply. What is wanted of it are the
other selected fields, and never the field itself. -/
inductive Climbs (context : RunContext) (plan : ListPlan) (fields : FieldPickers) (around : Json)
    (before after : RunState) : FieldValue Handle → List (String × Json) → Prop where
  | top {value : FieldValue Handle} (ends : value.asEntity? = none) :
      Climbs context plan fields around before after value []
  | up {value parent : FieldValue Handle} {entity : Handle} {row : String × Json}
      {rows : List (String × Json)} (refers : value.asEntity? = some entity)
      (enrolled : Enrolled context plan.cls plan.sub (readBelow plan fields around parent) before
        after row entity)
      (leads : after.held? entity plan.field.name = some parent)
      (wanted : ∀ name, before.Wants after entity name ↔
        name ∈ plan.sub.names ∧ name ≠ plan.field.name ∧ fields.find? name = none)
      (further : Climbs context plan fields around before after parent rows) :
      Climbs context plan fields around before after value (row :: rows)

theorem Climbs.step {value parent : FieldValue Handle} {entity : Handle} {row : String × Json}
    {rows : List (String × Json)} (recursive : plan.sub.isRecursive plan.field.name = true)
    (refers : value.asEntity? = some entity)
    (enrolled : Enrolled context plan.cls plan.sub (readBelow plan fields around parent) before
      after row entity)
    (further : Climbs context plan fields around before after parent rows) :
    Climbs context plan fields around before after value (row :: rows) := by
  obtain ⟨earlier, values, later, begins, reads, ends, entered⟩ := id enrolled
  obtain ⟨read, _, loads, done⟩ := yields_bind_iff.mp reads
  obtain ⟨rfl, rfl⟩ := yields_pure_iff.mp done
  have selected : plan.field.name ∈ plan.sub.names :=
    Selector.mem_names_of_found (by simpa [Selector.isRecursive] using recursive)
  refine .up refers enrolled ?_ (fun name => ?_) further
  · rw [entered.held?_eq selected, OrderedMap.get?_set, if_pos rfl]
  · rw [entered.wanted, OrderedMap.get?_set]
    refine and_congr_right fun inSelector => ?_
    by_cases same : plan.field.name = name
    · simp [same]
    · simp [same, Ne.symm same, get?_load_eq_none_iff loads inSelector]

/-- Reading one more part of a path puts its rows before what was climbed. -/
theorem climbs_of_loadAncestors {nearest entity? : Option Handle} {climbed : List (String × Json)}
    {items : List Json} (recursive : plan.sub.isRecursive plan.field.name = true)
    (first : origin.Adds before) (last : after.Adds final)
    (climbs : Climbs context plan fields around origin final (oneEntity plan.field nearest) climbed)
    (done : Yields context (loadAncestors plan (fields.loadField plan.path) around nearest items)
      before entity? after) :
    ∃ rows, identify (plan.idOf around) items = .ok rows ∧
      Climbs context plan fields around origin final (oneEntity plan.field entity?)
        (rows.reverse ++ climbed) := by
  induction items generalizing before nearest climbed with
  | nil =>
      obtain ⟨rfl, rfl⟩ := yields_pure_iff.mp done
      exact ⟨[], rfl, climbs⟩
  | cons item rest inductionHypothesis =>
      obtain ⟨id?, named, done⟩ := yields_ofExcept_bind_iff.mp done
      cases id? with
      | none =>
          obtain ⟨rows, identified, further⟩ := inductionHypothesis first climbs done
          exact ⟨rows, identify_cons_iff.mpr ⟨none, rows, named, identified, rfl⟩, further⟩
      | some id =>
          obtain ⟨values, read, loads, done⟩ := yields_bind_iff.mp done
          obtain ⟨entity, middle, spawns, done⟩ := yields_bind_iff.mp done
          have begins := closed_adding.fields Scope.reads_everything _ _ _ loads
          obtain ⟨adds, entered, _⟩ := entered_of_spawn spawns
          have ends := closed_adding.loadAncestors
            (closed_adding.each Scope.reads_everything plan.path)
            around (some entity) rest done
          have reads : Yields context
              (readBelow plan fields around (oneEntity plan.field nearest) item) before
              (values.set plan.field.name (oneEntity plan.field nearest)) read :=
            yields_bind_iff.mpr ⟨values, read, loads, yields_pure_iff.mpr ⟨rfl, rfl⟩⟩
          have enrolled : Enrolled context plan.cls plan.sub
              (readBelow plan fields around (oneEntity plan.field nearest)) origin final (id, item)
              entity :=
            ⟨before, _, read, first, reads, adds.trans (ends.trans last),
              entered.frame (first.trans begins) adds (ends.trans last)⟩
          have one : Climbs context plan fields around origin final
              (oneEntity plan.field (some entity)) ((id, item) :: climbed) :=
            .step recursive (asEntity?_oneEntity _ _) enrolled climbs
          obtain ⟨rows, identified, further⟩ :=
            inductionHypothesis (first.trans (begins.trans adds)) one done
          refine ⟨_, identify_cons_iff.mpr ⟨some id, rows, named, identified, rfl⟩, ?_⟩
          simpa using further

theorem Climbs.nearest {value : FieldValue Handle} {rows : List (String × Json)}
    (climbs : Climbs context plan fields around before after value rows) :
    value.asEntity?.map after.idOf? = rows.head?.map fun row => some row.1 := by
  cases climbs with
  | top ends => simp [ends]
  | up refers enrolled _ _ _ =>
      obtain ⟨_, _, _, _, _, _, entered⟩ := enrolled
      rw [refers, Option.map_some, entered.idOf?_eq]
      rfl

theorem id_of_loadEntity {id : IdSpec} {sub : Selector} {entity? : Option Handle}
    (done : Yields context (loadEntity path id (fields.loadField path) cls response sub) before
      entity? after) :
    ∃ id?, id.load path response = .ok id? ∧ entity?.map after.idOf? = id?.map some := by
  obtain ⟨id?, named, done⟩ := yields_ofExcept_bind_iff.mp done
  refine ⟨id?, named, ?_⟩
  cases id? with
  | none =>
      obtain ⟨rfl, rfl⟩ := yields_pure_iff.mp done
      rfl
  | some id =>
      simp only [yields_bind_iff, yields_pure_iff] at done
      obtain ⟨_, _, _, entity, _, spawns, rfl, rfl⟩ := done
      rw [Option.map_some, (entered_of_spawn spawns).2.1.idOf?_eq]
      rfl

/-- Reads the entity that the items of a path lead to: the whole way up if the field is recursive,
and otherwise the last item only. -/
def loadPath (plan : ListPlan) (fields : FieldPickers) (around : Json) (items : List Json) :
    Run (Option Handle) :=
  if plan.sub.isRecursive plan.field.name then
    loadAncestors plan (fields.loadField plan.path) around none items
  else
    match items.getLast? with
    | none => pure none
    | some last =>
        loadEntity plan.path plan.id (fields.loadField plan.path) plan.cls
          (liftInto plan.lifts around last) plan.sub

theorem loadNested_ancestors (plan : ListPlan) (fields : FieldPickers) (around value : Json) :
    loadNested .ancestors plan (fields.loadField plan.path) around value = (do
      let items ← ofExcept (itemsOf plan.path plan.key value)
      return oneEntity plan.field (← loadPath plan fields around items)) := by
  refine bind_congr fun items => ?_
  unfold loadPath
  split
  · rfl
  · cases items.getLast? <;> rfl

end Run

open Run RunState

section Chain

variable {context : RunContext} {before after : RunState} {path key : String} {id : IdSpec}
variable {fields : FieldPickers} {hasSubfields unique : Bool} {lifts : List (String × String)}
variable {field : Field} {cls : ClassId} {response : Json} {sub : Selector}
variable {value : FieldValue Handle}

theorem Picker.path_of_load
    (done : Yields context
      ((Picker.nested .ancestors key id fields hasSubfields lifts unique).load path field response
        sub) before value after) :
    ∃ items, response.itemsUnder path key = .ok items ∧
      ((items = [] ∧ value = .missing ∧ after = before) ∨
        ∃ cls entity?, field.kind.target? = some cls ∧ value = oneEntity field entity? ∧
          Yields context
            (loadPath { path, key, id, lifts, unique, field, cls, sub } fields response items)
            before entity? after) := by
  unfold Json.itemsUnder
  rcases cases_of_nested done with ⟨absent, rfl, rfl⟩ | ⟨stored, cls, found, known, done⟩
  · rw [absent]
    exact ⟨[], rfl, .inl ⟨rfl, rfl, rfl⟩⟩
  · rw [loadNested_ancestors] at done
    obtain ⟨items, listed, done⟩ := yields_ofExcept_bind_iff.mp done
    obtain ⟨entity?, _, loads, done⟩ := yields_bind_iff.mp done
    obtain ⟨rfl, rfl⟩ := yields_pure_iff.mp done
    rw [found]
    exact ⟨items, listed, .inr ⟨cls, entity?, known, rfl, loads⟩⟩

/-- Ancestors that are asked for all the way up are rebuilt as a chain: from the value on, the field
leads through the items of the path that have an id, the last item first, and no further. Nothing of
the field itself is left to be fetched, and an empty path leads nowhere. -/
theorem Picker.climbs_of_load (refers : field.kind.target? = some cls)
    (recursive : sub.isRecursive field.name = true)
    (done : Yields context
      ((Picker.nested .ancestors key id fields hasSubfields lifts unique).load path field response
        sub) before value after) :
    ∃ items rows, response.itemsUnder path key = .ok items ∧
      identify (fun item => id.load path (liftInto lifts response item)) items = .ok rows ∧
      before.Adds after ∧
      Climbs context { path, key, id, lifts, unique, field, cls, sub } fields response before after
        value rows.reverse ∧
      (items = [] → value.asEntity? = none ∧ after = before) := by
  have adds := closed_adding.picker path _ field response sub trivial done
  obtain ⟨items, listed, cases⟩ := Picker.path_of_load done
  rcases cases with ⟨rfl, rfl, rfl⟩ | ⟨other, entity?, known, rfl, loads⟩
  · exact ⟨[], [], listed, rfl, adds, .top rfl, fun _ => ⟨rfl, rfl⟩⟩
  · cases refers.symm.trans known
    rw [loadPath, if_pos recursive] at loads
    obtain ⟨rows, identified, climbs⟩ := climbs_of_loadAncestors recursive (.refl before)
      (.refl after) (.top (asEntity?_oneEntity field none)) loads
    rw [List.append_nil] at climbs
    refine ⟨items, rows, listed, identified, adds, climbs, fun empty => ?_⟩
    subst empty
    obtain ⟨rfl, rfl⟩ := yields_pure_iff.mp loads
    exact ⟨asEntity?_oneEntity field none, rfl⟩

end Chain

namespace Faculties

def cls : ClassId := ⟨0⟩

def parent : Field := ⟨"parent", cls, .optionalEntity cls, false, false⟩

/-- A faculty shows the path of units that it belongs to, some of which have no id. -/
def facultyClass : EntityClass :=
  { id := cls
    name := "Faculty"
    fields := [⟨"name", cls, .scalar .string, false, false⟩,
      ⟨"phone", cls, .scalar .string, false, false⟩, parent]
    searchItem := none
    foundField := none
    defaultSelector := .empty }

def context : RunContext where
  catalog := Catalog.empty ⟨[facultyClass]⟩
  remote := fun _ _ => .ok .null
  lang := .pl
  roundLimit := 0

/-- The path holds the names of units, and no phones. -/
def names : FieldPickers := .field "name" (.scalar .raw "name") .none

def picker : Picker := .nested .ancestors "path" (.elementary "id") names true [] false

def response (items : List Json) : Json := .object [("path", .array items)]

def unit (id : Json) (name : String) : Json := .object [("id", id), ("name", .str name)]

def university : Json := unit (.str "1") "University"

def department : Json := unit (.str "2") "Department"

def campus : Json := unit .null "Campus"

def chain : Selector := .recursive "parent" (.nested "name" .empty (.nested "phone" .empty .empty))

/-- The department belongs to the university, and the campus between them is left out. Only the
phones are left to be fetched. -/
theorem climbs_department :
    ∃ state, Yields context
        (picker.load "fac/faculty" parent (response [university, campus, department]) chain)
        { calls := [] } (.optional (some ⟨1⟩)) state ∧
      Climbs context ⟨"fac/faculty", "path", .elementary "id", [], false, parent, cls, chain⟩ names
        (response [university, campus, department]) { calls := [] } state (.optional (some ⟨1⟩))
        [("2", department), ("1", university)] := by
  have done : Yields context
      (picker.load "fac/faculty" parent (response [university, campus, department]) chain)
      { calls := [] } (.optional (some ⟨1⟩)) _ := rfl
  obtain ⟨items, rows, listed, identified, _, climbs, _⟩ := Picker.climbs_of_load rfl rfl done
  cases listed
  cases identified
  exact ⟨_, done, climbs⟩

end Faculties

section Nearest

variable {context : RunContext} {before after : RunState} {path key : String} {id : IdSpec}
variable {fields : FieldPickers} {hasSubfields unique : Bool} {lifts : List (String × String)}
variable {field : Field} {response : Json} {sub : Selector}
variable {value : FieldValue Handle}

theorem getLast?_join_eq_iff (ids : List (Option String)) :
    ids.getLast?.join = ids.reduceOption.getLast? ↔
      (ids.getLast? = some none → ids.reduceOption = []) := by
  rcases List.eq_nil_or_concat ids with rfl | ⟨others, id?, rfl⟩
  · simp
  · rw [List.concat_eq_append, List.getLast?_concat, Option.join_some]
    cases id? with
    | none =>
        have dropped : (others ++ [none]).reduceOption = others.reduceOption := by
          simp [List.reduceOption_append]
        rw [dropped, eq_comm, List.getLast?_eq_none_iff]
        simp
    | some id =>
        have kept : (others ++ [some id]).reduceOption = others.reduceOption ++ [id] := by
          simp [List.reduceOption_append]
        rw [kept, List.getLast?_concat]
        simp

theorem getLast?_of_mapM {idOf : Json → Except ResolveError (Option String)} {items : List Json}
    {ids : List (Option String)} (read : items.mapM idOf = .ok ids) :
    Option.Rel (fun item id? => idOf item = .ok id?) items.getLast? ids.getLast? := by
  have backwards := List.rel_reverse (mapM_eq_ok_iff.mp read)
  rw [List.getLast?_eq_head?_reverse, List.getLast?_eq_head?_reverse]
  generalize items.reverse = backItems, ids.reverse = backIds at backwards
  cases backwards with
  | nil => exact .none
  | cons pair _ => exact .some pair

namespace Run

variable {plan : ListPlan} {items : List Json} {entity? : Option Handle}

theorem id_of_loadPath_plain {ids : List (Option String)}
    (plain : plan.sub.isRecursive plan.field.name = false)
    (read : items.mapM (plan.idOf response) = .ok ids)
    (done : Yields context (loadPath plan fields response items) before entity? after) :
    entity?.map after.idOf? = ids.getLast?.join.map some := by
  rw [loadPath, if_neg (by rw [plain]; exact Bool.false_ne_true)] at done
  rcases optionRel_cases (getLast?_of_mapM read) with
    ⟨empty, emptyToo⟩ | ⟨last, id?, ends, endsToo, named⟩
  · rw [empty] at done
    obtain ⟨rfl, rfl⟩ := yields_pure_iff.mp done
    rw [emptyToo]
    rfl
  · rw [ends] at done
    obtain ⟨found?, loaded, same⟩ := id_of_loadEntity done
    cases named.symm.trans loaded
    rw [endsToo, Option.join_some]
    exact same

theorem id_of_loadPath_recursive (recursive : plan.sub.isRecursive plan.field.name = true)
    (done : Yields context (loadPath plan fields response items) before entity? after) :
    ∃ ids, items.mapM (plan.idOf response) = .ok ids ∧
      entity?.map after.idOf? = ids.reduceOption.getLast?.map some := by
  rw [loadPath, if_pos recursive] at done
  obtain ⟨rows, identified, climbs⟩ := climbs_of_loadAncestors recursive (.refl before)
    (.refl after) (.top (asEntity?_oneEntity plan.field none)) done
  obtain ⟨ids, read, present⟩ := exists_ids_of_identify identified
  refine ⟨ids, read, ?_⟩
  have nearest := climbs.nearest
  rw [asEntity?_oneEntity, List.append_nil, List.head?_reverse] at nearest
  rw [nearest, present, List.getLast?_map, Option.map_map]
  rfl

end Run

/-- A nearest ancestor that is asked for alone has the id of the last item of the path, if any. -/
theorem Picker.id_of_load_plain {items : List Json} {ids : List (Option String)}
    (plain : sub.isRecursive field.name = false) (listed : response.itemsUnder path key = .ok items)
    (read : (items.mapM fun item => id.load path (liftInto lifts response item)) = .ok ids)
    (done : Yields context
      ((Picker.nested .ancestors key id fields hasSubfields lifts unique).load path field response
        sub) before value after) :
    value.asEntity?.map after.idOf? = ids.getLast?.join.map some := by
  obtain ⟨itemsToo, listedToo, cases⟩ := Picker.path_of_load done
  cases listed.symm.trans listedToo
  rcases cases with ⟨rfl, rfl, rfl⟩ | ⟨cls, entity?, _, rfl, loads⟩
  · cases read
    rfl
  · rw [asEntity?_oneEntity]
    refine id_of_loadPath_plain plain ?_ loads
    exact read

/-- A nearest ancestor that is asked for with its own ancestors has the last id of the path, if
any. -/
theorem Picker.id_of_load_recursive (recursive : sub.isRecursive field.name = true)
    (done : Yields context
      ((Picker.nested .ancestors key id fields hasSubfields lifts unique).load path field response
        sub) before value after) :
    ∃ items ids, response.itemsUnder path key = .ok items ∧
      (items.mapM fun item => id.load path (liftInto lifts response item)) = .ok ids ∧
      value.asEntity?.map after.idOf? = ids.reduceOption.getLast?.map some := by
  obtain ⟨items, listed, cases⟩ := Picker.path_of_load done
  rcases cases with ⟨rfl, rfl, rfl⟩ | ⟨cls, entity?, _, rfl, loads⟩
  · exact ⟨[], [], listed, rfl, rfl⟩
  · obtain ⟨ids, read, nearest⟩ := id_of_loadPath_recursive recursive loads
    exact ⟨items, ids, listed, read, by rwa [asEntity?_oneEntity]⟩

/-- The nearest ancestor is read from the last item of the path if it is asked for alone, and from
the last item with an id if it is asked for with its own ancestors. So both find the same one, or
none, unless the last item has no id and another one has. -/
theorem Picker.nearest_same_iff {contextToo : RunContext} {beforeToo afterToo : RunState}
    {subToo : Selector} {valueToo : FieldValue Handle}
    (plain : sub.isRecursive field.name = false) (recursive : subToo.isRecursive field.name = true)
    (done : Yields context
      ((Picker.nested .ancestors key id fields hasSubfields lifts unique).load path field response
        sub) before value after)
    (doneToo : Yields contextToo
      ((Picker.nested .ancestors key id fields hasSubfields lifts unique).load path field response
        subToo) beforeToo valueToo afterToo) :
    ∃ items ids, response.itemsUnder path key = .ok items ∧
      (items.mapM fun item => id.load path (liftInto lifts response item)) = .ok ids ∧
      value.asEntity?.map after.idOf? = ids.getLast?.join.map some ∧
      valueToo.asEntity?.map afterToo.idOf? = ids.reduceOption.getLast?.map some ∧
      (value.asEntity?.map after.idOf? = valueToo.asEntity?.map afterToo.idOf? ↔
        (ids.getLast? = some none → ids.reduceOption = [])) := by
  obtain ⟨items, ids, listed, read, chained⟩ := Picker.id_of_load_recursive recursive doneToo
  have single := Picker.id_of_load_plain plain listed read done
  refine ⟨items, ids, listed, read, single, chained, ?_⟩
  rw [single, chained, ← getLast?_join_eq_iff]
  exact (Option.map_injective (Option.some_injective _)).eq_iff

end Nearest

namespace Faculties

def alone : Selector := .nested "name" .empty .empty

/-- A campus without an id at the end of the path hides the university, unless the ancestors are
asked for all the way up. -/
theorem nearest_hidden :
    ∃ state stateToo,
      Yields context (picker.load "fac/faculty" parent (response [university, campus]) alone)
        { calls := [] } (.optional none) state ∧
      Yields context (picker.load "fac/faculty" parent (response [university, campus]) chain)
        { calls := [] } (.optional (some ⟨0⟩)) stateToo ∧
      stateToo.idOf? ⟨0⟩ = some "1" :=
  ⟨_, _, rfl, rfl, rfl⟩

/-- A campus without an id inside of the path hides nothing. -/
theorem nearest_same_department :
    alone.isRecursive parent.name = false ∧ chain.isRecursive parent.name = true ∧
    ∃ state stateToo,
      Yields context
        (picker.load "fac/faculty" parent (response [university, campus, department]) alone)
        { calls := [] } (.optional (some ⟨0⟩)) state ∧
      Yields context
        (picker.load "fac/faculty" parent (response [university, campus, department]) chain)
        { calls := [] } (.optional (some ⟨1⟩)) stateToo ∧
      state.idOf? ⟨0⟩ = stateToo.idOf? ⟨1⟩ := by
  have done : Yields context
      (picker.load "fac/faculty" parent (response [university, campus, department]) alone)
      { calls := [] } (.optional (some ⟨0⟩)) _ := rfl
  have doneToo : Yields context
      (picker.load "fac/faculty" parent (response [university, campus, department]) chain)
      { calls := [] } (.optional (some ⟨1⟩)) _ := rfl
  obtain ⟨items, ids, listed, read, _, _, same⟩ := Picker.nearest_same_iff rfl rfl done doneToo
  cases listed
  cases read
  exact ⟨rfl, rfl, _, _, done, doneToo, Option.some.inj (same.mpr nofun)⟩

end Faculties

end EntityResolver
