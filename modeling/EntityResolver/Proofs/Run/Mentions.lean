import EntityResolver.Proofs.Catalog.Spoken
import EntityResolver.Proofs.Collections

/-!
Where the entities that are read out of a response come from.

A response mentions entities: it holds their ids, under the keys of an object that also holds values
for them, or as members of a list or map of ids. Whatever a picker spawns is mentioned, with the id
that stands there, for the selector that leads there, and with values for the fields that are read
there.
-/

set_option autoImplicit false

namespace EntityResolver

open Run

inductive Citation where
  /-- Under the keys of an object. -/
  | keys (id : IdSpec) (object : Json)
  /-- In a list or map of ids, at a member with the value. -/
  | listed (value : Json)

/-- An entity that a response mentions, the pickers that its values are read with, and where its id
stands. -/
structure Mention where
  cls : ClassId
  id : String
  selector : Selector
  fields : FieldPickers
  citation : Citation

/-- The objects that nested entities are read from, with what is lifted into them. An object of a
list can hold a list again. -/
inductive NestedShape.Embeds (key : String) (lifts : List (String × String)) :
    NestedShape → Json → Json → Prop where
  | single {response stored : Json} (found : response.member? key = some stored)
      (present : stored.isNull = false) :
      Embeds key lifts .single response (liftInto lifts response stored)
  | member {response item : Json} {name : String} {members : List (String × Json)}
      (found : response.member? key = some (.object members)) (inside : (name, item) ∈ members)
      (present : item.isNull = false) :
      Embeds key lifts .map response (liftInto lifts response item)
  | item {response item : Json} {items : List Json}
      (found : response.member? key = some (.array items)) (inside : item ∈ items) :
      Embeds key lifts .list response (liftInto lifts response item)
  | deeper {response outer inner : Json} (upper : Embeds key lifts .list response outer)
      (lower : Embeds key lifts .list outer inner) : Embeds key lifts .list response inner
  | ancestor {response item : Json} {items : List Json}
      (found : response.member? key = some (.array items)) (inside : item ∈ items) :
      Embeds key lifts .ancestors response (liftInto lifts response item)

inductive Picker.Visits (response : Json) : Picker → IdSpec → Json → Prop where
  | reference (id : IdSpec) : Visits response (.reference id) id response
  | inline (id : IdSpec) (fields : FieldPickers) : Visits response (.inline id fields) id response
  | member {item : Json} (id : IdSpec) (fields : FieldPickers)
      (inside : item ∈ response.memberValues) (present : item.isNull = false) :
      Visits response (.inlineList id fields) id item
  | nested {shape : NestedShape} {key : String} {lifts : List (String × String)} {object : Json}
      (id : IdSpec) (fields : FieldPickers) (hasSubfields unique : Bool)
      (embeds : shape.Embeds key lifts response object) :
      Visits response (.nested shape key id fields hasSubfields lifts unique) id object

/-- A response mentions an entity where a picker looks for a field, or further inside, in an object
that describes another entity. -/
inductive Picker.Mentions (schema : Schema) (path : String) :
    Picker → Field → Json → Selector → Mention → Prop where
  | item {key : String} {field : Field} {response item : Json} {sub : Selector} {cls : ClassId}
      {items : List Json} (refers : field.kind.target? = some cls)
      (found : response.member? key = some (.array items)) (inside : item ∈ items) :
      Mentions schema path (.referenceList key) field response sub
        ⟨cls, idText item, sub, .none, .listed item⟩
  | member {key name : String} {flipped : Bool} {field : Field} {response value : Json}
      {sub : Selector} {cls : ClassId} {members : List (String × Json)}
      (refers : field.kind.target? = some cls)
      (found : response.member? key = some (.object members)) (inside : (name, value) ∈ members) :
      Mentions schema path (.referenceMap key flipped) field response sub
        ⟨cls, if flipped then name else idText value, sub, .none, .listed value⟩
  | described {picker : Picker} {field : Field} {response object : Json} {sub : Selector}
      {cls : ClassId} {id : IdSpec} {text : String} (refers : field.kind.target? = some cls)
      (visited : picker.Visits response id object) (known : id.load path object = .ok (some text)) :
      Mentions schema path picker field response sub
        ⟨cls, text, sub, picker.inside, .keys id object⟩
  | within {picker inner : Picker} {field innerField : Field} {response object : Json}
      {sub below : Selector} {cls : ClassId} {id : IdSpec} {name : String} {mention : Mention}
      (refers : field.kind.target? = some cls) (visited : picker.Visits response id object)
      (selected : (name, below) ∈ sub.resolved) (picked : picker.inside.find? name = some inner)
      (declared : schema.field? cls name = some innerField)
      (deeper : Mentions schema path inner innerField object below mention) :
      Mentions schema path picker field response sub mention

/-- The response mentions the entity where the field of an object of the class is read. -/
def FieldPickers.Mentions (fields : FieldPickers) (schema : Schema) (path : String) (cls : ClassId)
    (response : Json) (name : String) (sub : Selector) (mention : Mention) : Prop :=
  ∃ picker field, fields.find? name = some picker ∧ schema.field? cls name = some field ∧
    picker.Mentions schema path field response sub mention

structure Mention.Spawns (mention : Mention) (origin : Origin) : Prop where
  cls : origin.cls = mention.cls
  id : origin.id = mention.id
  selector : origin.selector = mention.selector

/-- A target wants those fields of a mentioned entity that no value was read for. -/
structure Mention.Leaves (mention : Mention) (target : Target) : Prop where
  cls : target.cls = mention.cls
  id : target.id = mention.id
  selector : target.selector = mention.selector
  selected : target.unresolved.Sublist mention.selector.names
  unread : ∀ name ∈ target.unresolved, mention.fields.find? name = none

/-- Between the states entities were spawned as they are mentioned, and targets came up for what was
not read of them. -/
structure RunState.Traces (mentioned : Mention → Prop) (before after : RunState) : Prop where
  origins : ∃ added, after.origins = added ++ before.origins ∧
    ∀ origin ∈ added, ∃ mention, mentioned mention ∧ mention.Spawns origin
  targets : ∃ added, after.spawned = before.spawned ++ added ∧
    ∀ target ∈ added, ∃ mention, mentioned mention ∧ mention.Leaves target

namespace RunState.Traces

variable {mentioned wider : Mention → Prop} {before middle after : RunState}

theorem refl (mentioned : Mention → Prop) (state : RunState) : state.Traces mentioned state :=
  ⟨⟨[], rfl, by simp⟩, ⟨[], (List.append_nil _).symm, by simp⟩⟩

theorem trans (first : before.Traces mentioned middle) (second : middle.Traces mentioned after) :
    before.Traces mentioned after := by
  obtain ⟨⟨early, started, cited⟩, ⟨firstTargets, spawned, left⟩⟩ := first
  obtain ⟨⟨late, ended, citedToo⟩, ⟨lastTargets, spawnedToo, leftToo⟩⟩ := second
  refine ⟨⟨late ++ early, ?_, ?_⟩, ⟨firstTargets ++ lastTargets, ?_, ?_⟩⟩
  · rw [ended, started, List.append_assoc]
  · exact List.forall_mem_append.mpr ⟨citedToo, cited⟩
  · rw [spawnedToo, spawned, List.append_assoc]
  · exact List.forall_mem_append.mpr ⟨left, leftToo⟩

theorem mono (traces : before.Traces mentioned after)
    (more : ∀ mention, mentioned mention → wider mention) : before.Traces wider after := by
  obtain ⟨⟨origins, began, cited⟩, ⟨targets, spawned, left⟩⟩ := traces
  refine ⟨⟨origins, began, fun origin member => ?_⟩, ⟨targets, spawned, fun target member => ?_⟩⟩
  · obtain ⟨mention, allowed, matching⟩ := cited origin member
    exact ⟨mention, more mention allowed, matching⟩
  · obtain ⟨mention, allowed, leaves⟩ := left target member
    exact ⟨mention, more mention allowed, leaves⟩

end RunState.Traces

namespace Run

variable {context : RunContext} {mentioned wider : Mention → Prop} {α β : Type}
variable {path key name : String} {fields : FieldPickers} {cls : ClassId} {sub : Selector}
variable {id : IdSpec} {response : Json}

def Traced (context : RunContext) (mentioned : Mention → Prop) (step : Run α) : Prop :=
  ∀ ⦃before result after⦄, Yields context step before result after → before.Traces mentioned after

structure Covers (context : RunContext) (mentioned : Mention → Prop) (path : String) (id : IdSpec)
    (fields : FieldPickers) (cls : ClassId) (sub : Selector) (object : Json) : Prop where
  itself : ∀ text, id.load path object = .ok (some text) →
    mentioned ⟨cls, text, sub, fields, .keys id object⟩
  within : ∀ name below, (name, below) ∈ sub.resolved →
    Traced context mentioned (fields.loadField path cls object name below)

theorem items_of_itemsOf {value item : Json} {items : List Json}
    (listed : itemsOf path key value = .ok items) (inside : item ∈ items) :
    value = .array items := by
  cases value with
  | array _ => exact congrArg Json.array (Except.ok.inj listed)
  | null =>
      cases listed
      cases inside
  | bool _ | int _ | float _ | str _ | object _ => cases listed

theorem members_of_membersOf {value : Json} {member : String × Json}
    {members : List (String × Json)} (listed : membersOf path key value = .ok members)
    (inside : member ∈ members) : value = .object members := by
  cases value with
  | object _ => exact congrArg Json.object (Except.ok.inj listed)
  | null =>
      cases listed
      cases inside
  | bool _ | int _ | float _ | str _ | array _ => cases listed

namespace Traced

theorem pure (value : α) : Traced context mentioned (pure value) := by
  intro before result after done
  obtain ⟨rfl, rfl⟩ := yields_pure_iff.mp done
  exact .refl mentioned _

theorem bind {step : Run α} {next : α → Run β} (first : Traced context mentioned step)
    (rest : ∀ ⦃before value middle⦄, Yields context step before value middle →
      Traced context mentioned (next value)) : Traced context mentioned (step >>= next) := by
  intro before result after done
  obtain ⟨value, middle, begun, done⟩ := yields_bind_iff.mp done
  exact (first begun).trans (rest begun done)

theorem ofExcept_bind {outcome : Except ResolveError α} {next : α → Run β}
    (rest : ∀ value, outcome = .ok value → Traced context mentioned (next value)) :
    Traced context mentioned (ofExcept outcome >>= next) := by
  intro before result after done
  obtain ⟨value, found, done⟩ := yields_ofExcept_bind_iff.mp done
  exact rest value found done

theorem map {step : Run α} (traced : Traced context mentioned step) (change : α → β) :
    Traced context mentioned (do return change (← step)) :=
  traced.bind fun _ _ _ _ => pure _

theorem mono {step : Run α} (traced : Traced context mentioned step)
    (more : ∀ mention, mentioned mention → wider mention) : Traced context wider step :=
  fun _ _ _ done => (traced done).mono more

theorem spawn {text : String} {values : FieldValues} {citation : Citation}
    (cited : mentioned ⟨cls, text, sub, fields, citation⟩)
    (read : ∀ name ∈ sub.names, values.get? name = none → fields.find? name = none) :
    Traced context mentioned (Run.spawn cls text sub values false) := by
  intro before entity after done
  obtain ⟨rfl, target, resolved, given, rfl⟩ := yields_spawn_iff.mp done
  have unread : ∀ name, name ∈ target.unresolved ↔ name ∈ sub.names ∧ values.get? name = none :=
    mem_unresolved_resolveGiven rfl given
  obtain ⟨continues, _, _, _, _, rfl⟩ := quiet_resolveGiven given
  constructor
  · refine ⟨[before.next cls text sub false], rfl, fun origin member => ?_⟩
    cases List.mem_singleton.mp member
    exact ⟨_, cited, ⟨rfl, rfl, rfl⟩⟩
  · refine ⟨[target].filter Target.isActive, rfl, fun other member => ?_⟩
    cases List.mem_singleton.mp (List.mem_of_mem_filter member)
    refine ⟨_, cited, continues.cls, continues.id, continues.selector, continues.unresolved, ?_⟩
    intro name left
    obtain ⟨selected, absent⟩ := (unread name).mp left
    exact read name selected absent

theorem spawnAlone {text : String} {citation : Citation}
    (cited : mentioned ⟨cls, text, sub, .none, citation⟩) :
    Traced context mentioned (Run.spawn cls text sub [] false) :=
  spawn cited fun _ _ _ => rfl

theorem spawnAll {items : List Json}
    (cited : ∀ item ∈ items, mentioned ⟨cls, idText item, sub, .none, .listed item⟩) :
    Traced context mentioned (Run.spawnAll cls sub (items.map idText)) := by
  induction items with
  | nil => exact pure []
  | cons item rest inductionHypothesis =>
      rw [List.map_cons, Run.spawnAll]
      obtain ⟨first, others⟩ := List.forall_mem_cons.mp cited
      exact (spawnAlone first).bind fun _ _ _ _ => (inductionHypothesis others).map _

theorem spawnMap {entries : List (String × String)} {built : OrderedMap Handle}
    (cited : ∀ entry ∈ entries, ∃ citation, mentioned ⟨cls, entry.2, sub, .none, citation⟩) :
    Traced context mentioned (Run.spawnMap cls sub built entries) := by
  induction entries generalizing built with
  | nil => exact pure built
  | cons entry rest inductionHypothesis =>
      obtain ⟨key, text⟩ := entry
      obtain ⟨⟨citation, first⟩, others⟩ := List.forall_mem_cons.mp cited
      exact (spawnAlone first).bind fun _ _ _ _ => inductionHypothesis others

theorem loadSelected {loadField : LoadField} {wanted : List (String × Selector)}
    (each : ∀ name below, (name, below) ∈ wanted →
      Traced context mentioned (loadField cls response name below)) :
    Traced context mentioned (Run.loadSelected loadField cls response wanted) := by
  induction wanted with
  | nil => exact pure []
  | cons entry rest inductionHypothesis =>
      obtain ⟨name, below⟩ := entry
      refine (each name below List.mem_cons_self).bind fun _ value? _ _ => ?_
      have others := inductionHypothesis fun name below member =>
        each name below (List.mem_cons_of_mem _ member)
      exact others.map _

theorem loadValues {object : Json}
    (covers : Covers context mentioned path id fields cls sub object) :
    Traced context mentioned (Run.loadValues (fields.loadField path) cls object sub) :=
  loadSelected covers.within

/-- Fields without a value are those that have no picker. -/
theorem find?_of_loadValues {before after : RunState} {object : Json} {values : FieldValues}
    (done : Yields context (Run.loadValues (fields.loadField path) cls object sub) before values
      after) (selected : name ∈ sub.names) (absent : values.get? name = none) :
    fields.find? name = none :=
  (get?_load_eq_none_iff done selected).mp absent

theorem loadEntity {object : Json}
    (covers : Covers context mentioned path id fields cls sub object) :
    Traced context mentioned (Run.loadEntity path id (fields.loadField path) cls object sub) := by
  refine ofExcept_bind fun id? known => ?_
  cases id? with
  | none => exact pure none
  | some text =>
      refine (loadValues covers).bind fun _ values _ read => ?_
      exact (spawn (covers.itself text known) fun _ => find?_of_loadValues read).map some

theorem loadPresent {loadOne : Json → Run (Option Handle)} {item : Json}
    (one : item.isNull = false → Traced context mentioned (loadOne item)) :
    Traced context mentioned (Run.loadPresent loadOne item) := by
  unfold Run.loadPresent
  by_cases isNull : item.isNull = true
  · rw [if_pos isNull]
    exact pure none
  · rw [if_neg isNull]
    exact one (Bool.eq_false_of_not_eq_true isNull)

theorem loadEntities {loadOne : Json → Run (Option Handle)} {items : List Json}
    (each : ∀ item ∈ items, item.isNull = false → Traced context mentioned (loadOne item)) :
    Traced context mentioned (Run.loadEntities loadOne items) := by
  induction items with
  | nil => exact pure []
  | cons item rest inductionHypothesis =>
      rw [loadEntities_cons]
      obtain ⟨first, others⟩ := List.forall_mem_cons.mp each
      exact (loadPresent first).bind fun _ _ _ _ => (inductionHypothesis others).map _

theorem loadMembers {loadOne : Json → Run (Option Handle)} {members : List (String × Json)}
    (each : ∀ member ∈ members, member.2.isNull = false →
      Traced context mentioned (loadOne member.2)) :
    Traced context mentioned (Run.loadMembers loadOne members) := by
  induction members with
  | nil => exact pure []
  | cons member rest inductionHypothesis =>
      obtain ⟨key, item⟩ := member
      rw [loadMembers_cons]
      obtain ⟨first, others⟩ := List.forall_mem_cons.mp each
      exact (loadPresent first).bind fun _ _ _ _ => (inductionHypothesis others).map _

variable {plan : ListPlan}

abbrev AllCovered (context : RunContext) (mentioned : Mention → Prop) (plan : ListPlan)
    (fields : FieldPickers) (shape : NestedShape) (response : Json) : Prop :=
  ∀ object, shape.Embeds plan.key plan.lifts response object →
    Covers context mentioned plan.path plan.id fields plan.cls plan.sub object

theorem loadItems {below : Json → Run (List Handle)} {items : List Json}
    (covers : ∀ item ∈ items, Covers context mentioned plan.path plan.id fields plan.cls plan.sub
      (liftInto plan.lifts response item))
    (deeper : ∀ item ∈ items,
      Traced context mentioned (below (liftInto plan.lifts response item))) (seen : List String) :
    Traced context mentioned
      (Run.loadItems plan (fields.loadField plan.path) below response seen items) := by
  induction items generalizing seen with
  | nil => exact pure []
  | cons item rest inductionHypothesis =>
      obtain ⟨covered, others⟩ := List.forall_mem_cons.mp covers
      obtain ⟨deeperFirst, deeperOthers⟩ := List.forall_mem_cons.mp deeper
      have remaining := inductionHypothesis others deeperOthers
      refine ofExcept_bind fun id? known => ?_
      cases id? with
      | none => exact remaining seen
      | some text =>
          have spawned {values : FieldValues}
              (read : ∀ name ∈ plan.sub.names, values.get? name = none → fields.find? name = none) :
              Traced context mentioned (do
                let entity ← Run.spawn plan.cls text plan.sub values false
                let entities ← Run.loadItems plan (fields.loadField plan.path) below response
                  (text :: seen) rest
                return entity :: entities) :=
            (spawn (covered.itself text known) read).bind fun _ _ _ _ => (remaining _).map _
          dsimp only
          split
          · exact remaining seen
          · refine (loadValues covered).bind fun _ values _ read => ?_
            have known (name : String) (selected : name ∈ plan.sub.names)
                (absent : values.get? name = none) : fields.find? name = none :=
              find?_of_loadValues read selected absent
            split
            · simp only [pure_bind]
              refine deeperFirst.bind fun _ children _ _ => spawned fun name selected absent => ?_
              rw [OrderedMap.get?_set] at absent
              split at absent
              · cases absent
              · exact known name selected absent
            · rw [pure_bind]
              exact spawned known

theorem loadList (depth : Nat) (covers : AllCovered context mentioned plan fields .list response) :
    Traced context mentioned
      (Run.loadList plan (fields.loadField plan.path) depth response) := by
  induction depth generalizing response with
  | zero => nofun
  | succ depth inductionHypothesis =>
      rw [Run.loadList]
      split
      · exact pure []
      · rename_i value found
        refine ofExcept_bind fun items listed => ?_
        have embeds (item : Json) (inside : item ∈ items) :
            NestedShape.list.Embeds plan.key plan.lifts response
              (liftInto plan.lifts response item) :=
          .item (items_of_itemsOf listed inside ▸ found) inside
        refine loadItems (fun item inside => covers _ (embeds item inside))
          (fun item inside => ?_) []
        exact inductionHypothesis fun object lower =>
          covers object ((embeds item inside).deeper lower)

theorem loadAncestors {items : List Json} {nearest : Option Handle}
    (covers : ∀ item ∈ items, Covers context mentioned plan.path plan.id fields plan.cls plan.sub
      (liftInto plan.lifts response item)) :
    Traced context mentioned
      (Run.loadAncestors plan (fields.loadField plan.path) response nearest items) := by
  induction items generalizing nearest with
  | nil => exact pure nearest
  | cons item rest inductionHypothesis =>
      obtain ⟨covered, others⟩ := List.forall_mem_cons.mp covers
      refine ofExcept_bind fun id? known => ?_
      cases id? with
      | none => exact inductionHypothesis others
      | some text =>
          refine (loadValues covered).bind fun _ values _ read => ?_
          refine (spawn (covered.itself text known) fun name selected absent => ?_).bind
            fun _ _ _ _ => inductionHypothesis others
          rw [OrderedMap.get?_set] at absent
          split at absent
          · cases absent
          · exact find?_of_loadValues read selected absent

theorem loadNested {shape : NestedShape} {stored : Json}
    (found : response.member? plan.key = some stored)
    (covers : AllCovered context mentioned plan fields shape response) :
    Traced context mentioned
      (Run.loadNested shape plan (fields.loadField plan.path) response stored) := by
  have nothing :
      Traced context mentioned (Pure.pure (oneEntity plan.field none) : Run (FieldValue Handle)) :=
    pure _
  cases shape with
  | single =>
      simp only [Run.loadNested]
      by_cases isNull : stored.isNull = true
      · rw [if_pos isNull]
        exact nothing
      · rw [if_neg isNull]
        have present : stored.isNull = false := Bool.eq_false_of_not_eq_true isNull
        exact (loadEntity (covers _ (.single found present))).map _
  | map =>
      refine ofExcept_bind fun members listed => ?_
      refine (loadMembers fun member inside present => ?_).map _
      have isObject := members_of_membersOf listed inside
      exact loadEntity (covers _ (.member (isObject ▸ found) inside present))
  | list => exact (loadList _ covers).map _
  | ancestors =>
      refine ofExcept_bind fun items listed => ?_
      have covered (item : Json) (inside : item ∈ items) :=
        covers _ (.ancestor (items_of_itemsOf listed inside ▸ found) inside)
      split
      · exact (loadAncestors covered).map _
      · split
        · exact nothing
        · rename_i last isLast
          exact (loadEntity (covered last (List.mem_of_getLast? isLast))).map _

theorem withKey {field : Field} {load : Json → Run (FieldValue Handle)}
    (present : ∀ stored, response.member? key = some stored →
      Traced context mentioned (load stored)) :
    Traced context mentioned (Run.withKey path field key response load) := by
  intro before value after done
  rcases cases_of_withKey done with ⟨_, _, rfl⟩ | ⟨stored, found, loads⟩
  · exact .refl mentioned _
  · exact present stored found loads

end Traced

/-- Entities were spawned since there were only the given origins. -/
def originating (context : RunContext) (base : List Origin) : Discipline context where
  embeds := True
  given _ _ _ := True
  admits _ _ := True
  invariant state := base <:+ state.origins
  leads before after := before.origins <:+ after.origins
  serves state _ _ entity :=
    ∃ added, state.origins = added ++ base ∧ ∃ origin ∈ added, origin.entity = entity
  knows _ _ := True
  refl _ := List.suffix_refl _
  trans := List.IsSuffix.trans
  keeps := by
    rintro before after cls sub entity ⟨more, later⟩ ⟨added, begun, origin, member, same⟩
    refine ⟨more ++ added, ?_, origin, List.mem_append_right _ member, same⟩
    rw [← later, begun, List.append_assoc]
  known _ := trivial
  remains _ known := known
  below _ _ _ := trivial
  spawns := by
    intro before after cls id selector values entity valid _ _ _ done
    obtain ⟨added, begun⟩ := valid
    obtain ⟨_, target, _, _, _, _, _, rfl⟩ := spawn_cases done
    have spawned : ⟨entity, cls, id, selector, false⟩ :: before.origins =
        (⟨entity, cls, id, selector, false⟩ :: added) ++ base :=
      congrArg _ begun.symm
    exact ⟨⟨_, spawned.symm⟩, List.suffix_cons _ _, _, spawned, _, List.mem_cons_self, rfl⟩
  roots := by
    intro before after cls id selector values isWeak entity valid _ _ done
    obtain ⟨_, target, _, _, _, _, _, rfl⟩ := spawn_cases done
    exact ⟨List.suffix_cons_iff.mpr (.inr valid), List.suffix_cons _ _⟩
  frame _ _ _ valid _ := ⟨valid, List.suffix_refl _⟩
  shelves := by
    intro before after cls id sub values entity valid _ done
    obtain ⟨_, rfl⟩ := yields_alloc_iff.mp done
    exact ⟨valid, List.suffix_refl _, trivial⟩

end Run

section Pickers

variable {context : RunContext} {path name : String} {cls : ClassId} {response object : Json}
variable {sub : Selector} {field : Field} {picker : Picker} {id : IdSpec}

theorem Picker.covers_of_visits (refers : field.kind.target? = some cls)
    (visited : picker.Visits response id object)
    (deeper : ∀ name below, Run.Traced context
      (picker.inside.Mentions context.catalog.schema path cls object name below)
      (picker.inside.loadField path cls object name below)) :
    Run.Covers context (picker.Mentions context.catalog.schema path field response sub) path id
      picker.inside cls sub object where
  itself _ known := .described refers visited known
  within name below selected := by
    refine (deeper name below).mono fun mention mentions => ?_
    obtain ⟨inner, innerField, picked, declared, mentions⟩ := mentions
    exact .within refers visited selected picked declared mentions

theorem FieldPickers.mentions_of_ne {fields : FieldPickers} {schema : Schema} {other : String}
    {mention : Mention} (there : name ≠ other)
    (mentions : fields.Mentions schema path cls response other sub mention) :
    (FieldPickers.field name picker fields).Mentions schema path cls response other sub
      mention := by
  obtain ⟨inner, innerField, picked, declared, mentions⟩ := mentions
  exact ⟨inner, innerField, (if_neg there).trans picked, declared, mentions⟩

mutual

theorem Picker.traced_load (picker : Picker) (field : Field) (response : Json) (sub : Selector) :
    Run.Traced context (picker.Mentions context.catalog.schema path field response sub)
      (picker.load path field response sub) := by
  cases picker with
  | scalar rule key =>
      refine .withKey fun stored _ => ?_
      intro before value after done
      obtain ⟨given, _, known, reads⟩ := yields_bind_iff.mp done
      obtain ⟨_, rfl⟩ := yields_read_iff.mp known
      split at reads
      · exact Run.Traced.pure _ reads
      · exact absurd reads not_yields_throw
  | reference id =>
      refine .ofExcept_bind fun cls known => ?_
      have refers := Field.target_eq_ok_iff.mp known
      refine .ofExcept_bind fun id? cited => ?_
      cases id? with
      | none => exact .pure _
      | some text => exact (Run.Traced.spawnAlone (.described refers (.reference id) cited)).map _
  | referenceList key =>
      refine .withKey fun stored found => ?_
      refine .ofExcept_bind fun cls known => ?_
      have refers := Field.target_eq_ok_iff.mp known
      refine .ofExcept_bind fun items listed => ?_
      refine (Run.Traced.spawnAll fun item inside => ?_).map _
      exact .item refers (items_of_itemsOf listed inside ▸ found) inside
  | referenceMap key flipped =>
      refine .withKey fun stored found => ?_
      refine .ofExcept_bind fun cls known => ?_
      have refers := Field.target_eq_ok_iff.mp known
      refine .ofExcept_bind fun members listed => ?_
      refine (Run.Traced.spawnMap fun entry inside => ?_).map _
      obtain ⟨⟨name, value⟩, member, rfl⟩ := List.mem_map.mp inside
      have isObject := members_of_membersOf listed member
      have mentioned : (Picker.referenceMap key flipped).Mentions context.catalog.schema path field
          response sub ⟨cls, if flipped then name else idText value, sub, .none, .listed value⟩ :=
        .member refers (isObject ▸ found) member
      refine ⟨.listed value, ?_⟩
      cases flipped <;> exact mentioned
  | inline id fields =>
      refine .ofExcept_bind fun cls known => ?_
      have refers := Field.target_eq_ok_iff.mp known
      exact (Run.Traced.loadEntity (Picker.covers_of_visits refers (.inline id fields)
        fun name below => fields.traced_loadField cls response name below)).map _
  | inlineList id fields =>
      refine .ofExcept_bind fun cls known => ?_
      have refers := Field.target_eq_ok_iff.mp known
      have one (item : Json) (inside : item ∈ response.memberValues)
          (present : item.isNull = false) :
          Run.Traced context
            ((Picker.inlineList id fields).Mentions context.catalog.schema path field response sub)
            (loadEntity path id (fields.loadField path) cls item sub) :=
        Run.Traced.loadEntity (Picker.covers_of_visits refers (.member id fields inside present)
          fun name below => fields.traced_loadField cls item name below)
      cases response with
      | object _ | array _ => exact (Run.Traced.loadEntities one).map _
      | null | bool _ | int _ | float _ | str _ => nofun
  | nested shape key id fields hasSubfields lifts unique =>
      refine .withKey fun stored found => ?_
      refine .ofExcept_bind fun cls known => ?_
      have refers := Field.target_eq_ok_iff.mp known
      refine Run.Traced.loadNested found fun object embeds => ?_
      exact Picker.covers_of_visits refers (.nested id fields hasSubfields unique embeds)
        fun name below => fields.traced_loadField cls object name below
termination_by sizeOf picker

theorem FieldPickers.traced_loadField (fields : FieldPickers) (cls : ClassId) (response : Json)
    (name : String) (sub : Selector) :
    Run.Traced context (fields.Mentions context.catalog.schema path cls response name sub)
      (fields.loadField path cls response name sub) := by
  cases fields with
  | none => exact .pure _
  | field other picker rest =>
      rw [FieldPickers.loadField]
      by_cases here : other = name
      · rw [if_pos here]
        intro before value? after done
        obtain ⟨schema, _, known, reads⟩ := yields_bind_iff.mp done
        obtain ⟨rfl, rfl⟩ := yields_schema_iff.mp known
        split at reads
        · exact absurd reads not_yields_throw
        · rename_i field declared
          have traced : Run.Traced context
              ((FieldPickers.field other picker rest).Mentions context.catalog.schema path cls
                response name sub) (picker.load path field response sub) :=
            (picker.traced_load field response sub).mono fun mention mentions =>
              ⟨picker, field, if_pos here, declared, mentions⟩
          exact traced.map _ reads
      · rw [if_neg here]
        exact (rest.traced_loadField cls response name sub).mono fun _ =>
          FieldPickers.mentions_of_ne here
termination_by sizeOf fields

end

/-- Whatever the value of a field refers to was spawned while it was read. -/
theorem Picker.spawned_of_load {before after : RunState} {value : FieldValue Handle}
    {entity : Handle}
    (done : Yields context (picker.load path field response sub) before value after)
    (inside : entity ∈ value.entities) :
    ∃ added, after.origins = added ++ before.origins ∧
      ∃ origin ∈ added, origin.entity = entity := by
  have valid : (Run.originating context before.origins).invariant before := List.suffix_refl _
  have picks : (Run.originating context before.origins).Picks field sub
      (picker.load path field response sub) :=
    Run.Discipline.load path picker field response (.inr trivial) fun _ _ => trivial
  obtain ⟨_, _, served⟩ := ((picks valid).yields done).2 entity inside
  exact served

end Pickers

end EntityResolver
