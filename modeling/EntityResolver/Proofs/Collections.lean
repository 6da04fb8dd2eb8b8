import EntityResolver.Proofs.Evaluation.Reading
import EntityResolver.Proofs.Run.Members

/-!
# Collections

A field can refer to many entities: references in a list or under keys, members of the response, or
the objects of a nested list or map. Each picker says which members count and what their ids are,
and reading the collection enrolls these members, in order and in the shape of the value. A member
that does not count leaves nothing behind.
-/

set_option autoImplicit false

namespace EntityResolver

open Run RunState

def Json.memberValues : Json → List Json
  | .object members => members.map Prod.snd
  | .array items => items
  | _ => []

/-- What is read under a key of a response; without the key the value is missing. -/
def Json.readUnderKey {ε : Type} (response : Json) (key : String)
    (read : Json → Except ResolveError (FieldValue ε)) : Except ResolveError (FieldValue ε) :=
  match response.member? key with
  | none => .ok .missing
  | some stored => read stored

namespace Picker

/-- The picker reads a collection, in which no field is followed further down. -/
def isCollection (picker : Picker) (field : Field) (sub : Selector) : Bool :=
  match picker with
  | .referenceList _ | .referenceMap _ false | .inlineList _ _ | .nested .map _ _ _ _ _ _ => true
  | .nested .list _ _ _ _ _ _ => !sub.isRecursive field.name
  | _ => false

/-- The members of a collection that count, each with its id, in the shape of the value.

Every reference counts, under the key of its member in a map. Of the members of a response, or of a
nested map, those count that are not null and have an id; of a nested list the items that have an
id, and if it is `unique` only the first of each id. -/
def members (path : String) (response : Json) :
    Picker → Except ResolveError (FieldValue (String × Json))
  | .referenceList key => response.readUnderKey key fun stored =>
      (itemsOf path key stored).map fun items => .list (items.map fun item => (idText item, item))
  | .referenceMap key _ => response.readUnderKey key fun stored =>
      (membersOf path key stored).map fun entries =>
        .map (entries.map fun entry => (entry.1, idText entry.2, entry.2))
  | .inlineList id _ =>
      (identify (idUnlessNull fun item => id.load path item) response.memberValues).map .list
  | .nested .map key id _ _ lifts _ => response.readUnderKey key fun stored => do
      let entries ← membersOf path key stored
      let rows ← identify (fun entry =>
        idUnlessNull (fun item => id.load path (liftInto lifts response item)) entry.2) entries
      return .map (keyed rows)
  | .nested .list key id _ _ lifts unique => response.readUnderKey key fun stored => do
      let items ← itemsOf path key stored
      let rows ← identify (fun item => id.load path (liftInto lifts response item)) items
      return .list (if unique then firstOfEach rows else rows)
  | _ => .ok .missing

def readMember (path : String) (cls : ClassId) (response : Json) (sub : Selector) :
    Picker → Json → Run FieldValues
  | .inlineList _ fields, item => fields.load path cls item sub
  | .nested _ _ _ fields _ lifts _, item => fields.load path cls (liftInto lifts response item) sub
  | _, _ => pure []

end Picker

namespace Run

variable {context : RunContext} {before after : RunState} {cls : ClassId} {sub : Selector}
variable {read : Json → Run FieldValues}

theorem mapM_of_keyed {ε τ : Type} {visit : ε → Run τ} {entries : List (String × ε)}
    {found : List (String × τ)}
    (done : Yields context (entries.mapM fun entry => do return (entry.1, ← visit entry.2)) before
      found after) :
    Yields context ((entries.map Prod.snd).mapM visit) before (found.map Prod.snd) after := by
  induction entries generalizing before found with
  | nil =>
      rw [List.mapM_nil] at done
      obtain ⟨rfl, rfl⟩ := yields_pure_iff.mp done
      exact yields_pure_iff.mpr ⟨rfl, rfl⟩
  | cons entry rest inductionHypothesis =>
      rw [List.mapM_cons] at done
      simp only [yields_bind_iff, yields_pure_iff] at done
      obtain ⟨_, middle, ⟨one, _, first, rfl, rfl⟩, others, _, remaining, rfl, rfl⟩ := done
      exact yields_mapM_cons first (inductionHypothesis remaining)

theorem mapM_entities_of_traverse {ε τ : Type} {visit : ε → Run τ} {value : FieldValue ε}
    {result : FieldValue τ}
    (done : Yields context (value.traverseEntities visit) before result after) :
    Yields context (value.entities.mapM visit) before result.entities after := by
  have alone {one : ε} {other : τ} (visited : Yields context (visit one) before other after) :
      Yields context ([one].mapM visit) before [other] after :=
    yields_mapM_cons visited (yields_pure_iff.mpr ⟨rfl, rfl⟩)
  cases value with
  | missing | scalar _ =>
      obtain ⟨rfl, rfl⟩ := yields_pure_iff.mp done
      exact yields_pure_iff.mpr ⟨rfl, rfl⟩
  | entity one =>
      simp only [FieldValue.traverseEntities, yields_bind_iff, yields_pure_iff] at done
      obtain ⟨other, _, visited, rfl, rfl⟩ := done
      exact alone visited
  | optional one? =>
      cases one? with
      | none =>
          obtain ⟨rfl, rfl⟩ := yields_pure_iff.mp done
          exact yields_pure_iff.mpr ⟨rfl, rfl⟩
      | some one =>
          simp only [FieldValue.traverseEntities, yields_bind_iff, yields_pure_iff] at done
          obtain ⟨other, _, visited, rfl, rfl⟩ := done
          exact alone visited
  | list ones =>
      simp only [FieldValue.traverseEntities, yields_bind_iff, yields_pure_iff] at done
      obtain ⟨others, _, visited, rfl, rfl⟩ := done
      exact visited
  | map ones =>
      simp only [FieldValue.traverseEntities, yields_bind_iff, yields_pure_iff] at done
      obtain ⟨others, _, visited, rfl, rfl⟩ := done
      exact mapM_of_keyed visited

theorem rel_of_traverse {rows : FieldValue (String × Json)} {value : FieldValue Handle}
    (adding : ∀ item, Adding (read item))
    (done : Yields context (rows.traverseEntities (enroll cls sub read)) before value after) :
    rows.Rel (Enrolled context cls sub read before after) value := by
  have all := yields_traverseEntities before.Adds RunState.Adds
    (fun state row entity => before.Adds state ∧ Enrolled context cls sub read before state row entity)
    .refl .trans
    (fun later found => ⟨found.1.trans later, found.2.frame (.refl _) found.1 later⟩)
    (fun _ begun enrolls => by
      obtain ⟨adds, enrolled, _⟩ := enrolled_of_enroll adding enrolls
      exact ⟨begun.trans adds, adds, begun.trans adds, enrolled.frame begun adds (.refl _)⟩)
    (.refl before) done
  exact all.2.2.mono fun _ _ _ found => found.2

theorem spawnAll_idText (items : List Json) :
    spawnAll cls sub (items.map idText) =
      (items.map fun item => (idText item, item)).mapM (enroll cls sub fun _ => pure []) := by
  rw [spawnAll_eq, List.map_map, List.mapM_map, List.mapM_map]
  rfl

theorem spawnMap_idText {entries : OrderedMap Json} (distinct : entries.Distinct) :
    (do return .map (← spawnMap cls sub [] (entries.map fun (name, id) => (name, idText id)))) =
      FieldValue.traverseEntities (enroll cls sub fun _ => pure [])
        (.map (entries.map fun entry => (entry.1, idText entry.2, entry.2))) := by
  rw [map_spawnMap cls sub distinct]
  simp only [FieldValue.traverseEntities, List.mapM_map]
  rfl

theorem distinct_of_membersOf {path key : String} {response stored : Json}
    {entries : List (String × Json)} (proper : response.IsProper)
    (found : response.member? key = some stored)
    (listed : membersOf path key stored = .ok entries) :
    OrderedMap.Distinct entries := by
  cases stored with
  | null =>
      cases listed
      exact .nil
  | object _ =>
      cases listed
      exact proper _ _ found
  | bool _ | int _ | float _ | str _ | array _ => cases listed

/-- What is read under a key, for the class of the field, is traversed if it is so wherever there is
something. -/
theorem traverse_of_withKey {path key : String} {field : Field} {response : Json}
    {value : FieldValue Handle} {load : ClassId → Json → Run (FieldValue Handle)}
    {members : Json → Except ResolveError (FieldValue (String × Json))}
    (refers : ∀ other ∈ field.kind.target?, other = cls)
    (each : ∀ stored, response.member? key = some stored →
      Yields context (load cls stored) before value after → ∃ rows, members stored = .ok rows ∧
        Yields context (rows.traverseEntities (enroll cls sub read)) before value after)
    (done : Yields context (withKey path field key response fun stored => do
      load (← ofExcept (field.target path)) stored) before value after) :
    ∃ rows, response.readUnderKey key members = .ok rows ∧
      Yields context (rows.traverseEntities (enroll cls sub read)) before value after := by
  unfold Json.readUnderKey
  rcases cases_of_withKey done with ⟨absent, rfl, rfl⟩ | ⟨stored, found, done⟩
  · rw [absent]
    exact ⟨.missing, rfl, yields_pure_iff.mpr ⟨rfl, rfl⟩⟩
  · obtain ⟨other, known, done⟩ := yields_ofExcept_bind_iff.mp done
    obtain rfl := refers other (Field.target_eq_ok_iff.mp known)
    rw [found]
    exact each stored found done

/-- Without a field that is followed further down, an item of a list is read like a
single object. -/
theorem readItem_of_plain {plan : ListPlan} (plain : plan.sub.isRecursive plan.field.name = false)
    (loadField : LoadField) (below : Json → Run (List Handle)) (around : Json) :
    plan.readItem loadField below around = fun item =>
      loadValues loadField plan.cls (liftInto plan.lifts around item) plan.sub := by
  funext item
  rw [ListPlan.readItem, plain]
  exact bind_pure _

end Run

namespace Picker

variable {context : RunContext} {before after : RunState} {path : String} {picker : Picker}
variable {field : Field} {cls : ClassId} {response : Json} {sub : Selector}
variable {value : FieldValue Handle}

/-- The members that count are enrolled, and nothing else is done. -/
def Enrolls (context : RunContext) (picker : Picker) (path : String) (cls : ClassId)
    (response : Json) (sub : Selector) (before : RunState) (value : FieldValue Handle)
    (after : RunState) : Prop :=
  ∃ rows, picker.members path response = .ok rows ∧
    Yields context (rows.traverseEntities
      (enroll cls sub (picker.readMember path cls response sub))) before value after

section Members

variable {key : String} {id : IdSpec} {fields : FieldPickers} {hasSubfields unique : Bool}
variable {lifts : List (String × String)}
variable (refers : ∀ other ∈ field.kind.target?, other = cls)
include refers

theorem enrolls_of_referenceList
    (done : Yields context ((Picker.referenceList key).load path field response sub) before value
      after) :
    (Picker.referenceList key).Enrolls context path cls response sub before value after := by
  refine traverse_of_withKey refers (fun stored _ done => ?_) done
  obtain ⟨items, listed, done⟩ := yields_ofExcept_bind_iff.mp done
  rw [spawnAll_idText] at done
  refine ⟨.list (items.map fun item => (idText item, item)), ?_, ?_⟩
  · rw [listed]
    rfl
  · exact done

theorem enrolls_of_referenceMap (proper : response.IsProper)
    (done : Yields context ((Picker.referenceMap key false).load path field response sub) before
      value after) :
    (Picker.referenceMap key false).Enrolls context path cls response sub before value after := by
  refine traverse_of_withKey refers (fun stored found done => ?_) done
  obtain ⟨entries, listed, done⟩ := yields_ofExcept_bind_iff.mp done
  simp only [Bool.false_eq_true, if_false] at done
  rw [spawnMap_idText (distinct_of_membersOf proper found listed)] at done
  refine ⟨.map (entries.map fun entry => (entry.1, idText entry.2, entry.2)), ?_, ?_⟩
  · rw [listed]
    rfl
  · exact done

theorem enrolls_of_inlineList
    (done : Yields context ((Picker.inlineList id fields).load path field response sub) before value
      after) :
    (Picker.inlineList id fields).Enrolls context path cls response sub before value after := by
  obtain ⟨other, known, done⟩ := yields_ofExcept_bind_iff.mp done
  obtain rfl := refers other (Field.target_eq_ok_iff.mp known)
  cases response with
  | object _ | array _ =>
      simp only [pure_bind, yields_bind_iff, yields_pure_iff] at done
      obtain ⟨entities, _, loads, rfl, rfl⟩ := done
      obtain ⟨rows, identified, enrolls⟩ := mapM_of_loadEntities loads
      refine ⟨.list rows, congrArg (Except.map FieldValue.list) identified, ?_⟩
      exact yields_bind_iff.mpr ⟨entities, _, enrolls, yields_pure_iff.mpr ⟨rfl, rfl⟩⟩
  | null | bool _ | int _ | float _ | str _ =>
      obtain ⟨_, _, fails, _⟩ := yields_bind_iff.mp done
      exact absurd fails not_yields_throw

theorem enrolls_of_nestedMap
    (done : Yields context ((Picker.nested .map key id fields hasSubfields lifts unique).load path
      field response sub) before value after) :
    (Picker.nested .map key id fields hasSubfields lifts unique).Enrolls context path cls
      response sub before value after := by
  refine traverse_of_withKey refers (fun stored found done => ?_) done
  obtain ⟨entries, listed, done⟩ := yields_ofExcept_bind_iff.mp done
  obtain ⟨entities, _, loads, done⟩ := yields_bind_iff.mp done
  obtain ⟨rfl, rfl⟩ := yields_pure_iff.mp done
  obtain ⟨rows, identified, enrolls⟩ := mapM_of_loadMembers loads
  refine ⟨.map (keyed rows), ?_, ?_⟩
  · exact bind_eq_ok_iff.mpr ⟨entries, listed, bind_eq_ok_iff.mpr ⟨rows, identified, rfl⟩⟩
  · exact yields_bind_iff.mpr ⟨entities, _, enrolls, yields_pure_iff.mpr ⟨rfl, rfl⟩⟩

theorem enrolls_of_nestedList (plain : sub.isRecursive field.name = false)
    (done : Yields context ((Picker.nested .list key id fields hasSubfields lifts unique).load path
      field response sub) before value after) :
    (Picker.nested .list key id fields hasSubfields lifts unique).Enrolls context path cls
      response sub before value after := by
  refine traverse_of_withKey refers (fun stored found done => ?_) done
  obtain ⟨entities, _, loads, done⟩ := yields_bind_iff.mp done
  obtain ⟨rfl, rfl⟩ := yields_pure_iff.mp done
  rw [ListPlan.depthIn, loadList, found] at loads
  obtain ⟨items, listed, loads⟩ := yields_ofExcept_bind_iff.mp loads
  obtain ⟨rows, identified, enrolls⟩ := mapM_of_loadItems loads
  rw [ListPlan.unseen_nil, readItem_of_plain plain] at enrolls
  refine ⟨.list (if unique then firstOfEach rows else rows), ?_, ?_⟩
  · exact bind_eq_ok_iff.mpr ⟨items, listed, bind_eq_ok_iff.mpr ⟨rows, identified, rfl⟩⟩
  · exact yields_bind_iff.mpr ⟨entities, _, enrolls, yields_pure_iff.mpr ⟨rfl, rfl⟩⟩

end Members

theorem enrolls_of_load (collection : picker.isCollection field sub = true)
    (proper : response.IsProper) (refers : ∀ other ∈ field.kind.target?, other = cls)
    (done : Yields context (picker.load path field response sub) before value after) :
    picker.Enrolls context path cls response sub before value after := by
  cases picker with
  | scalar _ _ | reference _ | inline _ _ => cases collection
  | referenceList _ => exact enrolls_of_referenceList refers done
  | referenceMap _ flipped =>
      cases flipped with
      | true => cases collection
      | false => exact enrolls_of_referenceMap refers proper done
  | inlineList _ _ => exact enrolls_of_inlineList refers done
  | nested shape _ _ _ _ _ _ =>
      cases shape with
      | single | ancestors => cases collection
      | map => exact enrolls_of_nestedMap refers done
      | list =>
          have plain : sub.isRecursive field.name = false := by
            simpa [isCollection] using collection
          exact enrolls_of_nestedList refers plain done

end Picker

section Collected

variable {context : RunContext} {before after : RunState} {path : String} {picker : Picker}
variable {field : Field} {cls : ClassId} {response : Json} {sub : Selector}
variable {read : Json → Run FieldValues} {rows : FieldValue (String × Json)}
variable {value : FieldValue Handle}

/-- The value holds an entity for each of the rows, under its key or in its place. Besides these
only what their values refer to has come in or is left to be fetched. -/
structure Collects (context : RunContext) (cls : ClassId) (sub : Selector)
    (read : Json → Run FieldValues) (rows : FieldValue (String × Json)) (before after : RunState)
    (value : FieldValue Handle) : Prop where
  adds : before.Adds after
  enrolled : rows.Rel (Enrolled context cls sub read before after) value
  apart : value.entities.Nodup
  came : ∀ entity, before.Came after entity ↔
    entity ∈ value.entities ∨ CameWithin context read rows.entities before after entity
  pending : ∀ target ∈ before.gained after,
    target.entity ∈ value.entities ∨
      CameWithin context read rows.entities before after target.entity

theorem collects_of_traverse (adding : ∀ item, Adding (read item))
    (done : Yields context (rows.traverseEntities (enroll cls sub read)) before value after) :
    Collects context cls sub read rows before after value := by
  obtain ⟨adds, _, apart, only⟩ := enrolled_of_mapM adding (mapM_entities_of_traverse done)
  have enrolled := rel_of_traverse adding done
  refine ⟨adds, enrolled, apart, fun entity => ⟨only entity, ?_⟩, fun target member => ?_⟩
  · rintro (member | within)
    · obtain ⟨_, _, _, _, _, _, _, _, entered⟩ := enrolled.exists_of_mem member
      exact entered.isCame
    · exact within.came
  · exact only target.entity (adds.own target member)

theorem Picker.adding_readMember (path : String) (cls : ClassId) (response : Json)
    (sub : Selector) (picker : Picker) (item : Json) :
    Adding (picker.readMember path cls response sub item) := by
  cases picker with
  | scalar _ _ | reference _ | referenceList _ | referenceMap _ _ | inline _ _ =>
      exact closed_adding.pure _
  | inlineList _ fields | nested _ _ _ fields _ _ _ =>
      exact closed_adding.fields Scope.reads_everything _ _ _

/-- To read a collection is to enroll its members that count, one after the other. So it holds one
entity for each of them, in order and in the shape of the members, and members that do not count
bring nothing in and leave nothing to be fetched. -/
theorem Picker.collects_of_load (collection : picker.isCollection field sub = true)
    (proper : response.IsProper) (refers : ∀ other ∈ field.kind.target?, other = cls)
    (done : Yields context (picker.load path field response sub) before value after) :
    ∃ rows, picker.members path response = .ok rows ∧
      Yields context (rows.traverseEntities
        (enroll cls sub (picker.readMember path cls response sub))) before value after ∧
      Collects context cls sub (picker.readMember path cls response sub) rows before after
        value := by
  obtain ⟨rows, counted, enrolls⟩ := Picker.enrolls_of_load collection proper refers done
  exact ⟨rows, counted, enrolls,
    collects_of_traverse (Picker.adding_readMember path cls response sub picker) enrolls⟩

end Collected

namespace Editions

def course : ClassId := ⟨0⟩

def edition : ClassId := ⟨1⟩

def user : ClassId := ⟨2⟩

def editions : Field := ⟨"editions", course, .entityList edition, false, false⟩

def lecturer : Field := ⟨"lecturer", edition, .optionalEntity user, false, false⟩

def classWith (id : ClassId) (name : String) (fields : List Field) : EntityClass :=
  { id, name, fields, searchItem := none, foundField := none, defaultSelector := .empty }

def context : RunContext where
  catalog := Catalog.empty
    ⟨[classWith course "Course" [editions],
      classWith edition "Edition" [lecturer, ⟨"term", edition, .scalar .string, false, false⟩],
      classWith user "User" [⟨"name", user, .scalar .string, false, false⟩]]⟩
  remote := fun _ _ => .ok .null
  lang := .pl
  roundLimit := 0

/-- Lecturers are known by their ids, and of several editions with one id the first counts. -/
def picker : Picker :=
  .nested .list "editions" (.elementary "id")
    (.field "lecturer" (.reference (.elementary "lecturer_id")) .none) true [] true

def selector : Selector :=
  .nested "term" .empty (.nested "lecturer" (.nested "name" .empty .empty) .empty)

def item (id lecturer : Json) : Json := .object [("id", id), ("lecturer_id", lecturer)]

/-- An edition without an id, and one that is shown twice, the second time with another lecturer. -/
def response : Json :=
  .object [("editions", .array
    [item .null (.str "7"), item (.str "1") (.str "8"), item (.str "1") (.str "9"),
      item (.str "2") .null])]

theorem isProper_response : response.IsProper := by
  intro key inner found
  rw [response, Json.member?, OrderedMap.get?_cons] at found
  split at found <;> cases found

/-- Two editions come in and the lecturer of the first, and nothing of the other two items. -/
theorem collects_editions :
    picker.isCollection editions selector = true ∧ response.IsProper ∧
    (∀ other ∈ editions.kind.target?, other = edition) ∧
    ∃ state, Yields context (picker.load "courses/course" editions response selector) { calls := [] }
        (.list [⟨1⟩, ⟨2⟩]) state ∧
      Collects context edition selector
        (picker.readMember "courses/course" edition response selector)
        (.list [("1", item (.str "1") (.str "8")), ("2", item (.str "2") .null)]) { calls := [] }
        state (.list [⟨1⟩, ⟨2⟩]) ∧ state.arena.size = 3 := by
  have done : Yields context (picker.load "courses/course" editions response selector)
      { calls := [] } (.list [⟨1⟩, ⟨2⟩]) _ := rfl
  have refers : ∀ other ∈ editions.kind.target?, other = edition := by decide
  obtain ⟨rows, counted, _, collects⟩ :=
    Picker.collects_of_load rfl isProper_response refers done
  cases counted
  exact ⟨rfl, isProper_response, refers, _, done, collects, rfl⟩

end Editions

end EntityResolver
