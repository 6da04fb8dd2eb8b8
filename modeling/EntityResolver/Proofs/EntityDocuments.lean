import EntityResolver.Proofs.Catalog.Registered
import EntityResolver.Proofs.Json.Sorted
import EntityResolver.Proofs.Schema.Build
import EntityResolver.Proofs.Selector.Formed
import EntityResolver.Proofs.Value.Matched
import EntityResolver.Usos.Schema

/-!
# Documents of entities

An entity is shown as an object that holds its class, its id and its loaded fields. The fields are
stored last, so that all of them are shown under their names; but one that is itself named `class`
or `id` takes the place of the class or of the id, and nothing keeps a schema from declaring it.
-/

set_option autoImplicit false

namespace EntityResolver

namespace Schema.Builds

variable {schema : Schema} {naming : String → String} {declared : List ClassDecl} {id : ClassId}
variable {name : String}

theorem exists_fieldDecl {field : Field} (builds : schema.Builds naming declared)
    (found : schema.field? id name = some field) :
    ∃ decl ∈ withCompanions naming declared, ∃ fieldDecl ∈ decl.fields, fieldDecl.name = name := by
  obtain ⟨cls, known, foundField⟩ := Option.bind_eq_some_iff.mp found
  obtain ⟨decl, foundDecl, binds⟩ := builds.exists_decl known
  obtain ⟨fieldDecl, listed, bindsField⟩ := FieldValue.exists_related
    (bindFields_sound binds.fields).2.2.flip (List.mem_of_find?_eq_some foundField)
  exact ⟨decl, List.mem_of_getElem? foundDecl, fieldDecl, listed,
    bindsField.name.symm.trans (Selector.EntityClass.name_of_field? foundField)⟩

theorem exists_field {decl : ClassDecl} {fieldDecl : FieldDecl}
    (builds : schema.Builds naming declared) (member : decl ∈ withCompanions naming declared)
    (listed : fieldDecl ∈ decl.fields) :
    ∃ id cls field, schema.class? id = some cls ∧
      schema.field? id fieldDecl.name = some field := by
  obtain ⟨index, foundDecl⟩ := List.mem_iff_getElem?.mp member
  have positioned : (withCompanions naming declared)[(ClassId.mk index).index]? = some decl :=
    foundDecl
  obtain ⟨cls, known, binds⟩ := builds.exists_class positioned
  obtain ⟨field, inClass, bindsField⟩ := FieldValue.exists_related
    (bindFields_sound binds.fields).2.2 listed
  refine ⟨⟨index⟩, cls, field, known, Option.bind_eq_some_iff.mpr ⟨cls, known, ?_⟩⟩
  rw [← bindsField.name]
  exact Selector.EntityClass.field?_of_mem (builds.wellFormed.distinct known) inClass

end Schema.Builds

namespace Entity

mutual

/-- The document is an object that holds the class, the id and the loaded fields of the entity, with
documents that show the entities in the fields. -/
def Shows : Entity → Json → Prop
  | ⟨_, className, id, fields⟩, shown =>
      ∃ members, shown = .object members ∧
        OrderedMap.get? members "class" = some (.str className) ∧
        OrderedMap.get? members "id" = some ((id.map Json.str).getD .null) ∧
        ShowsFields fields members

def ShowsFields : List (String × FieldValue Entity) → List (String × Json) → Prop
  | [], _ => True
  | (name, value) :: rest, members =>
      (value.isMissing = false →
        ∃ shown, OrderedMap.get? members name = some shown ∧ ShowsValue value shown) ∧
      ShowsFields rest members

def ShowsValue : FieldValue Entity → Json → Prop
  | .missing, _ => False
  | .scalar value, shown => shown = value.document.sorted
  | .entity entity, shown => Shows entity shown
  | .optional none, shown => shown = .null
  | .optional (some entity), shown => Shows entity shown
  | .list entities, shown => ∃ items, shown = .array items ∧ ShowsItems entities items
  | .map entities, shown =>
      ∃ members, shown = .object members ∧
        (∀ key ∈ OrderedMap.keys members, key ∈ OrderedMap.keys entities) ∧
        ShowsEntries entities members

def ShowsItems : List Entity → List Json → Prop
  | [], items => items = []
  | entity :: rest, items =>
      ∃ first others, items = first :: others ∧ Shows entity first ∧ ShowsItems rest others

def ShowsEntries : List (String × Entity) → List (String × Json) → Prop
  | [], _ => True
  | (key, entity) :: rest, members =>
      (∃ shown, OrderedMap.get? members key = some shown ∧ Shows entity shown) ∧
      ShowsEntries rest members

end

/-- Something holds of an entity and of the entities in its fields, on all levels. -/
inductive Everywhere (holds : Entity → Prop) : Entity → Prop
  | intro {entity : Entity} (here : holds entity)
      (inner : ∀ field ∈ entity.fields, ∀ one ∈ field.2.entities, Everywhere holds one) :
      Everywhere holds entity

/-- The entity is of a class of the schema, and its fields are declared there. No field and no key
occurs twice. -/
structure Declared (schema : Schema) (entity : Entity) : Prop where
  known : ∃ cls, schema.class? entity.cls = some cls ∧ entity.className = cls.name
  fields : ∀ name ∈ OrderedMap.keys entity.fields,
    (schema.field? entity.cls name).isSome = true
  distinct : OrderedMap.Distinct entity.fields
  keys : ∀ name entities, (name, .map entities) ∈ entity.fields → OrderedMap.Distinct entities

def Fits (schema : Schema) (entity : Entity) : Prop :=
  ∀ name value field, (name, value) ∈ entity.fields →
    schema.field? entity.cls name = some field → field.kind.holds value = true

def identity (entity : Entity) : List (String × Json) :=
  [("class", .str entity.className), ("id", (entity.id.map Json.str).getD .null)]

/-- A field that is named like the member for the class or the id is shown as the same document. -/
def KeepsIdentity (entity : Entity) : Prop :=
  ∀ member ∈ entity.identity, ∀ value, (member.1, value) ∈ entity.fields →
    value.isMissing = false → (documentValue value).sorted = member.2

variable {entity : Entity} {fields : List (String × FieldValue Entity)} {entities : List Entity}
variable {value : FieldValue Entity} {shown : Json} {name : String} {schema : Schema}

theorem everywhere_iff {holds : Entity → Prop} :
    entity.Everywhere holds ↔ holds entity ∧
      ∀ field ∈ entity.fields, ∀ one ∈ field.2.entities, one.Everywhere holds :=
  ⟨fun ⟨here, inner⟩ => ⟨here, inner⟩, fun ⟨here, inner⟩ => .intro here inner⟩

theorem Everywhere.imp {holds wider : Entity → Prop} (all : entity.Everywhere holds)
    (widen : ∀ one, holds one → wider one) : entity.Everywhere wider := by
  induction all with
  | intro here _ inductionHypothesis => exact .intro (widen _ here) inductionHypothesis

theorem showsFields_iff {members : List (String × Json)} :
    ShowsFields fields members ↔
      ∀ field ∈ fields, field.2.isMissing = false →
        ∃ shown, OrderedMap.get? members field.1 = some shown ∧ ShowsValue field.2 shown := by
  induction fields with
  | nil => simp [ShowsFields]
  | cons field rest inductionHypothesis =>
      rw [ShowsFields, inductionHypothesis, List.forall_mem_cons]

theorem showsItems_iff {items : List Json} :
    ShowsItems entities items ↔ List.Forall₂ Shows entities items := by
  induction entities generalizing items with
  | nil => rw [ShowsItems, List.forall₂_nil_left_iff]
  | cons entity rest inductionHypothesis =>
      rw [ShowsItems]
      constructor
      · rintro ⟨first, others, rfl, head, tail⟩
        exact .cons head (inductionHypothesis.mp tail)
      · rintro (_ | ⟨head, tail⟩)
        exact ⟨_, _, rfl, head, inductionHypothesis.mpr tail⟩

theorem showsEntries_iff {entries : List (String × Entity)} {members : List (String × Json)} :
    ShowsEntries entries members ↔
      ∀ entry ∈ entries, ∃ shown, OrderedMap.get? members entry.1 = some shown ∧
        entry.2.Shows shown := by
  induction entries with
  | nil => simp [ShowsEntries]
  | cons entry rest inductionHypothesis =>
      rw [ShowsEntries, inductionHypothesis, List.forall_mem_cons]

theorem shows_iff :
    entity.Shows shown ↔ ∃ members, shown = .object members ∧
      (∀ member ∈ entity.identity, OrderedMap.get? members member.1 = some member.2) ∧
      ∀ field ∈ entity.fields, field.2.isMissing = false →
        ∃ inner, OrderedMap.get? members field.1 = some inner ∧ ShowsValue field.2 inner := by
  obtain ⟨cls, className, id, fields⟩ := entity
  rw [Shows]
  simp only [showsFields_iff, identity, List.forall_mem_cons, List.not_mem_nil,
    IsEmpty.forall_iff, implies_true, and_true, and_assoc]

theorem documentList_eq_map (entities : List Entity) :
    documentList entities = entities.map document := by
  induction entities with
  | nil => rfl
  | cons entity rest inductionHypothesis => rw [documentList, inductionHypothesis, List.map_cons]

theorem documentMap_eq_map (entries : List (String × Entity)) :
    documentMap entries = entries.map fun (key, entity) => (key, entity.document) := by
  induction entries with
  | nil => rfl
  | cons entry rest inductionHypothesis => rw [documentMap, inductionHypothesis, List.map_cons]

theorem documentFields_eq_map (fields : List (String × FieldValue Entity)) :
    documentFields fields =
      (fields.filter fun field => !field.2.isMissing).map fun (name, value) =>
        (name, documentValue value) := by
  induction fields with
  | nil => rfl
  | cons field rest inductionHypothesis =>
      rw [documentFields, inductionHypothesis, List.filter_cons]
      cases field.2.isMissing <;> rfl

theorem sortedFields_eq_map (fields : List (String × FieldValue Entity)) :
    Json.sortedMembers (documentFields fields) =
      (fields.filter fun field => !field.2.isMissing).map fun (name, value) =>
        (name, (documentValue value).sorted) := by
  rw [Json.sortedMembers_eq_map, documentFields_eq_map, List.map_map]
  rfl

theorem distinct_sortedFields (distinct : OrderedMap.Distinct fields) :
    OrderedMap.Distinct (Json.sortedMembers (documentFields fields)) := by
  rw [OrderedMap.Distinct, OrderedMap.keys, sortedFields_eq_map, List.map_map]
  exact (List.filter_sublist.map Prod.fst).nodup distinct

theorem get?_sortedFields_iff (distinct : OrderedMap.Distinct fields) :
    OrderedMap.get? (Json.sortedMembers (documentFields fields)) name = some shown ↔
      ∃ value, (name, value) ∈ fields ∧ value.isMissing = false ∧
        (documentValue value).sorted = shown := by
  rw [OrderedMap.get?_eq_some_iff (distinct_sortedFields distinct), sortedFields_eq_map]
  simp [and_assoc]

theorem exists_sorted_document (distinct : OrderedMap.Distinct entity.fields) :
    ∃ members, entity.document.sorted = .object members ∧ ∀ name,
      OrderedMap.get? members name =
        (OrderedMap.get? (Json.sortedMembers (documentFields entity.fields)) name).or
          (OrderedMap.get? entity.identity name) := by
  obtain ⟨cls, className, id, fields⟩ := entity
  have fixed : ((id.map Json.str).getD .null).sorted = (id.map Json.str).getD .null := by
    cases id <;> rfl
  have ordered (first second : Json) : Json.setMember "id" second [("class", first)] =
      [("class", first), ("id", second)] :=
    Json.setMember_of_lt (List.forall_mem_singleton.mpr (show "class" < "id" by decide))
  rw [document, Json.sorted, Json.sortedMembers, Json.sortedMembers, fixed]
  refine ⟨_, rfl, fun name => ?_⟩
  rw [List.foldl_cons, List.foldl_cons, Json.get?_foldl_setMember (distinct_sortedFields distinct)]
  exact congrArg (fun fixed => Option.or _ (OrderedMap.get? fixed name)) (ordered _ _)

theorem get?_identity {member : String × Json} (fixed : member ∈ entity.identity) :
    OrderedMap.get? entity.identity member.1 = some member.2 :=
  (OrderedMap.get?_eq_some_iff (by simp [OrderedMap.Distinct, OrderedMap.keys, identity])).mpr fixed

/-- A member for the class or the id is there unless a field takes its place. -/
theorem get?_identity_iff {members : List (String × Json)} {member : String × Json}
    (distinct : OrderedMap.Distinct entity.fields)
    (stored : ∀ name, OrderedMap.get? members name =
      (OrderedMap.get? (Json.sortedMembers (documentFields entity.fields)) name).or
        (OrderedMap.get? entity.identity name)) (fixed : member ∈ entity.identity) :
    OrderedMap.get? members member.1 = some member.2 ↔
      ∀ value, (member.1, value) ∈ entity.fields → value.isMissing = false →
        (documentValue value).sorted = member.2 := by
  rw [stored, get?_identity fixed]
  cases found : OrderedMap.get? (Json.sortedMembers (documentFields entity.fields)) member.1 with
  | none =>
      refine iff_of_true rfl fun value loaded present => ?_
      rw [(get?_sortedFields_iff distinct).mpr ⟨value, loaded, present, rfl⟩] at found
      cases found
  | some shown =>
      obtain ⟨value, loaded, present, same⟩ := (get?_sortedFields_iff distinct).mp found
      rw [Option.some_or, Option.some_inj]
      constructor
      · rintro rfl other loadedToo presentToo
        have foundToo := (get?_sortedFields_iff distinct).mpr ⟨other, loadedToo, presentToo, rfl⟩
        exact (Option.some.inj (found.symm.trans foundToo)).symm
      · exact fun each => same ▸ each value loaded present

/-- An entity is shown if its class and its id are kept and its fields hold entities that are. -/
theorem shows_document_iff (distinct : OrderedMap.Distinct entity.fields) :
    entity.Shows entity.document.sorted ↔ entity.KeepsIdentity ∧
      ∀ field ∈ entity.fields, field.2.isMissing = false →
        ShowsValue field.2 (documentValue field.2).sorted := by
  obtain ⟨members, same, stored⟩ := exists_sorted_document distinct
  have loaded (field : String × FieldValue Entity) (member : field ∈ entity.fields)
      (present : field.2.isMissing = false) :
      OrderedMap.get? members field.1 = some (documentValue field.2).sorted := by
    rw [stored, (get?_sortedFields_iff distinct).mpr ⟨field.2, member, present, rfl⟩,
      Option.some_or]
  rw [shows_iff, same]
  constructor
  · rintro ⟨_, ⟨⟩, fixed, inner⟩
    refine ⟨fun member isFixed => (get?_identity_iff distinct stored isFixed).mp
      (fixed member isFixed), fun field member present => ?_⟩
    obtain ⟨shown, found, shows⟩ := inner field member present
    rw [loaded field member present] at found
    exact Option.some.inj found ▸ shows
  · rintro ⟨kept, inner⟩
    exact ⟨members, rfl,
      fun member isFixed => (get?_identity_iff distinct stored isFixed).mpr (kept member isFixed),
      fun field member present => ⟨_, loaded field member present, inner field member present⟩⟩

theorem exists_sorted_map {entries : List (String × Entity)}
    (distinct : OrderedMap.Distinct entries) :
    ∃ members, (documentValue (.map entries)).sorted = .object members ∧
      (∀ key ∈ OrderedMap.keys members, key ∈ OrderedMap.keys entries) ∧
      ∀ entry ∈ entries, OrderedMap.get? members entry.1 = some entry.2.document.sorted := by
  have inner : Json.sortedMembers (documentMap entries) =
      entries.map fun (key, one) => (key, one.document.sorted) := by
    rw [Json.sortedMembers_eq_map, documentMap_eq_map, List.map_map]
    rfl
  have sameKeys : OrderedMap.keys (entries.map fun (key, one) => (key, one.document.sorted)) =
      OrderedMap.keys entries := List.map_map ..
  rw [OrderedMap.Distinct, ← sameKeys] at distinct
  obtain ⟨members, same, stored⟩ := Json.exists_ofMembers distinct
  rw [documentValue, Json.sorted, inner]
  refine ⟨members, same, fun key listed => ?_, fun entry member => ?_⟩
  · rwa [← OrderedMap.isSome_get?_iff, stored, OrderedMap.isSome_get?_iff, sameKeys] at listed
  · rw [stored]
    exact (OrderedMap.get?_eq_some_iff distinct).mpr (List.mem_map_of_mem member)

theorem showsValue_document_iff
    (distinct : ∀ entries, value = .map entries → OrderedMap.Distinct entries) :
    (value.isMissing = false → ShowsValue value (documentValue value).sorted) ↔
      ∀ one ∈ value.entities, one.Shows one.document.sorted := by
  cases value with
  | missing => simp [FieldValue.isMissing, FieldValue.entities]
  | scalar value => simp [ShowsValue, documentValue, FieldValue.entities]
  | entity one => simp [FieldValue.isMissing, ShowsValue, documentValue, FieldValue.entities]
  | optional one? =>
      cases one? <;>
        simp [FieldValue.isMissing, ShowsValue, documentValue, FieldValue.entities, Json.sorted]
  | list ones =>
      refine (forall_prop_of_true rfl).trans ?_
      rw [ShowsValue, documentValue, Json.sorted, Json.sortedItems_eq_map, documentList_eq_map,
        List.map_map]
      simp only [Json.array.injEq, exists_eq_left', showsItems_iff, List.forall₂_map_right_iff,
        List.forall₂_same, FieldValue.entities]
      rfl
  | map entries =>
      obtain ⟨members, same, keys, stored⟩ := exists_sorted_map (distinct entries rfl)
      refine (forall_prop_of_true rfl).trans ?_
      rw [ShowsValue, same]
      simp only [Json.object.injEq, exists_eq_left', showsEntries_iff, FieldValue.entities,
        List.forall_mem_map]
      constructor
      · rintro ⟨_, shows⟩ entry member
        obtain ⟨shown, found, showsEntry⟩ := shows entry member
        rw [stored entry member] at found
        exact Option.some.inj found ▸ showsEntry
      · exact fun shows => ⟨keys, fun entry member => ⟨_, stored entry member, shows entry member⟩⟩

/-- A tree over a schema is shown if and only if all its entities keep their classes and ids. -/
theorem shows_document_iff_everywhere (declared : entity.Everywhere (Declared schema)) :
    entity.Shows entity.document.sorted ↔ entity.Everywhere KeepsIdentity := by
  induction declared with
  | @intro entity here inner inductionHypothesis =>
      rw [shows_document_iff here.distinct, everywhere_iff]
      refine and_congr_right fun _ => forall₂_congr fun field member => ?_
      rw [showsValue_document_iff fun entries same => here.keys field.1 entries (same ▸ member)]
      exact forall₂_congr (inductionHypothesis field member)

/-- No class has a field that is named like the member for the class or the id. -/
def KeepsNames (naming : String → String) (declared : List ClassDecl) : Prop :=
  ∀ decl ∈ withCompanions naming declared, ∀ field ∈ decl.fields,
    field.name ≠ "class" ∧ field.name ≠ "id"

instance (naming : String → String) (declared : List ClassDecl) :
    Decidable (KeepsNames naming declared) :=
  inferInstanceAs (Decidable (∀ decl ∈ _, ∀ field ∈ _, _))

variable {naming : String → String} {declared : List ClassDecl} {id : ClassId}

def vacant : FieldKind ClassId → FieldValue Entity
  | .scalar _ => .scalar .null
  | .entity _ | .optionalEntity _ => .optional none
  | .entityList _ => .list []
  | .entityMap _ => .map []

theorem holds_vacant (kind : FieldKind ClassId) : kind.holds (vacant kind) = true := by
  cases kind <;> rfl

theorem isMissing_vacant (kind : FieldKind ClassId) : (vacant kind).isMissing = false := by
  cases kind <;> rfl

theorem entities_vacant (kind : FieldKind ClassId) : (vacant kind).entities = [] := by
  cases kind <;> rfl

theorem sorted_document_vacant_ne (kind : FieldKind ClassId) (text : String) :
    (documentValue (vacant kind)).sorted ≠ .str text := by
  cases kind <;> nofun

theorem declared_vacant {field : Field} {cls : EntityClass} (known : schema.class? id = some cls)
    (found : schema.field? id name = some field) :
    Everywhere (Declared schema) ⟨id, cls.name, some "", [(name, vacant field.kind)]⟩ := by
  have empty := entities_vacant field.kind
  refine .intro ⟨⟨cls, known, rfl⟩, ?_, List.nodup_singleton name, ?_⟩ ?_
  · exact List.forall_mem_singleton.mpr (Option.isSome_iff_exists.mpr ⟨field, found⟩)
  · intro other entries member
    rw [← (Prod.mk.inj (List.mem_singleton.mp member)).2] at empty
    rw [List.map_eq_nil_iff.mp empty]
    exact List.nodup_nil
  · refine List.forall_mem_singleton.mpr ?_
    rw [empty]
    exact nofun

theorem exists_not_shown {field : Field} {cls : EntityClass} (known : schema.class? id = some cls)
    (found : schema.field? id name = some field) (clashes : name = "class" ∨ name = "id") :
    ∃ entity : Entity, entity.Everywhere (Declared schema) ∧ entity.Fits schema ∧
      ¬ entity.Shows entity.document.sorted := by
  refine ⟨_, declared_vacant known found, ?_, fun shown => ?_⟩
  · intro other value otherField member foundToo
    obtain ⟨rfl, rfl⟩ := Prod.mk.inj (List.mem_singleton.mp member)
    cases found.symm.trans foundToo
    exact holds_vacant field.kind
  · rw [shows_document_iff_everywhere (declared_vacant known found), everywhere_iff] at shown
    obtain ⟨keeps, _⟩ := shown
    have replaces (text : String) (member : (name, .str text) ∈ identity _) : False :=
      sorted_document_vacant_ne field.kind text
        (keeps _ member _ List.mem_cons_self (isMissing_vacant _))
    rcases clashes with rfl | rfl
    · exact replaces _ List.mem_cons_self
    · exact replaces _ (List.mem_cons_of_mem _ List.mem_cons_self)

theorem keepsIdentity_of_keepsNames (builds : schema.Builds naming declared)
    (keeps : KeepsNames naming declared)
    (ofSchema : entity.Declared schema) : entity.KeepsIdentity := by
  intro member fixed value loaded
  obtain ⟨field, found⟩ :=
    Option.isSome_iff_exists.mp (ofSchema.fields member.1 (List.mem_map_of_mem loaded))
  obtain ⟨decl, isDeclared, fieldDecl, listed, named⟩ := builds.exists_fieldDecl found
  obtain ⟨notClass, notId⟩ := keeps decl isDeclared fieldDecl listed
  rcases List.mem_pair.mp fixed with rfl | rfl
  · exact absurd named notClass
  · exact absurd named notId

/-- A tree over a schema is shown if and only if all its entities keep their classes and ids. Where
no class declares a field that is named like one of the two, all trees are shown; where a class
does, some tree is not. -/
theorem shows_documents (built : Schema.ofDeclsNaming naming declared = .ok schema) :
    (∀ entity : Entity, entity.Everywhere (Declared schema) →
      (entity.Shows entity.document.sorted ↔ entity.Everywhere KeepsIdentity)) ∧
    (KeepsNames naming declared → ∀ entity : Entity, entity.Everywhere (Declared schema) →
      entity.Shows entity.document.sorted) ∧
    (¬ KeepsNames naming declared → ∃ entity : Entity, entity.Everywhere (Declared schema) ∧
      entity.Fits schema ∧ ¬ entity.Shows entity.document.sorted) := by
  have builds := Schema.builds_of_ofDeclsNaming built
  refine ⟨fun _ => shows_document_iff_everywhere, fun keeps entity ofSchema => ?_, fun clash => ?_⟩
  · exact (shows_document_iff_everywhere ofSchema).mpr
      (ofSchema.imp fun _ => keepsIdentity_of_keepsNames builds keeps)
  · simp only [KeepsNames, not_forall, not_and_or, not_not] at clash
    obtain ⟨decl, isDeclared, fieldDecl, listed, clashes⟩ := clash
    obtain ⟨id, cls, field, known, found⟩ := builds.exists_field isDeclared listed
    exact exists_not_shown known found clashes

example : KeepsNames Text.snakeCase Usos.classes := by decide +kernel

end Entity

namespace Parts

def parts : List ClassDecl := [
  { name := "Part"
    fields := [
      { name := "label", kind := .scalar .string },
      { name := "pieces", kind := .entityList "Part" },
      { name := "spares", kind := .entityMap "Part" },
      { name := "whole", kind := .optionalEntity "Part" }] }]

def partClass : EntityClass where
  id := ⟨0⟩
  name := "Part"
  fields := [
    ⟨"label", ⟨0⟩, .scalar .string, false, false⟩,
    ⟨"pieces", ⟨0⟩, .entityList ⟨0⟩, false, false⟩,
    ⟨"spares", ⟨0⟩, .entityMap ⟨0⟩, false, false⟩,
    ⟨"whole", ⟨0⟩, .optionalEntity ⟨0⟩, false, false⟩]
  searchItem := none
  foundField := none
  defaultSelector := .empty

def schema : Schema := ⟨[partClass]⟩

def bell : Entity := ⟨⟨0⟩, "Part", none, []⟩

def wheel : Entity :=
  ⟨⟨0⟩, "Part", some "w", [("whole", .missing), ("label", .scalar (.str "wheel"))]⟩

def bicycle : Entity :=
  ⟨⟨0⟩, "Part", some "b",
    [("spares", .map [("front", wheel), ("back", wheel)]), ("whole", .optional none),
      ("pieces", .list [wheel, bell])]⟩

theorem declared_bell : bell.Everywhere (Entity.Declared schema) :=
  .intro ⟨⟨partClass, rfl, rfl⟩, nofun, List.nodup_nil, nofun⟩ nofun

theorem declared_wheel : wheel.Everywhere (Entity.Declared schema) := by
  refine .intro ⟨⟨partClass, rfl, rfl⟩, by decide, by unfold OrderedMap.Distinct; decide, ?_⟩ ?_
  · simp [wheel]
  · simp [wheel, FieldValue.entities]

theorem declared_bicycle : bicycle.Everywhere (Entity.Declared schema) := by
  refine .intro ⟨⟨partClass, rfl, rfl⟩, by decide, by unfold OrderedMap.Distinct; decide, ?_⟩ ?_
  · simp [bicycle, OrderedMap.Distinct, OrderedMap.keys]
  · simp [bicycle, FieldValue.entities, declared_wheel, declared_bell]

theorem shows_documents_parts :
    Schema.ofDecls parts = .ok schema ∧ Entity.KeepsNames Text.snakeCase parts ∧
      bicycle.Everywhere (Entity.Declared schema) ∧ bicycle.Shows bicycle.document.sorted ∧
      bicycle.document.sorted = .object [
        ("class", .str "Part"), ("id", .str "b"),
        ("pieces", .array [wheel.document.sorted, .object [("class", .str "Part"), ("id", .null)]]),
        ("spares", .object [("back", wheel.document.sorted), ("front", wheel.document.sorted)]),
        ("whole", .null)] := by
  have built : Schema.ofDecls parts = .ok schema := by decide +kernel
  have keeps : Entity.KeepsNames Text.snakeCase parts := by decide
  exact ⟨built, keeps, declared_bicycle,
    (Entity.shows_documents built).2.1 keeps bicycle declared_bicycle, rfl⟩

end Parts

namespace Desks

def desks : List ClassDecl := [
  { name := "Desk", fields := [{ name := "id", kind := .scalar .string }] }]

def deskClass : EntityClass where
  id := ⟨0⟩
  name := "Desk"
  fields := [⟨"id", ⟨0⟩, .scalar .string, false, false⟩]
  searchItem := none
  foundField := none
  defaultSelector := .empty

def schema : Schema := ⟨[deskClass]⟩

def desk : Entity := ⟨⟨0⟩, "Desk", some "7", [("id", .scalar (.str "A-12"))]⟩

/-- The inventory number of a desk is shown as its id. -/
theorem desk_hides_id :
    Schema.ofDecls desks = .ok schema ∧ desk.Everywhere (Entity.Declared schema) ∧
      desk.Fits schema ∧
      desk.document.sorted = .object [("class", .str "Desk"), ("id", .str "A-12")] ∧
      ¬ desk.Shows desk.document.sorted := by
  have shown : desk.document.sorted = .object [("class", .str "Desk"), ("id", .str "A-12")] := rfl
  refine ⟨by decide +kernel, ?_, ?_, shown, fun shows => ?_⟩
  · refine .intro ⟨⟨deskClass, rfl, rfl⟩, by decide, by unfold OrderedMap.Distinct; decide, ?_⟩ ?_
    · simp [desk]
    · simp [desk, FieldValue.entities]
  · intro name value field member found
    obtain ⟨rfl, rfl⟩ := Prod.mk.inj (List.mem_singleton.mp member)
    cases found
    rfl
  · rw [shown] at shows
    obtain ⟨members, same, _, id, _⟩ := shows
    cases same
    simp [OrderedMap.get?] at id

end Desks

end EntityResolver
