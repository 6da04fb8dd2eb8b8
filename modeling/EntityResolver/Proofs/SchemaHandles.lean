import EntityResolver.Proofs.SchemaDeclarations

/-!
# Classes and their handles

The handle of a class is its position, and its name finds it and no other class. Declared classes
stand in front, in the order of their declarations, and behind them the companions of those that can
be searched. A companion is found again by its name alone, but since no two classes share a name, it
is the class that was made for the purpose: it has the two fields of a companion, and no class that
was declared is taken for one.
-/

set_option autoImplicit false

namespace EntityResolver

def FieldKind.map {ρ σ : Type} (rename : ρ → σ) : FieldKind ρ → FieldKind σ
  | .scalar type => .scalar type
  | .entity target => .entity (rename target)
  | .optionalEntity target => .optionalEntity (rename target)
  | .entityList target => .entityList (rename target)
  | .entityMap target => .entityMap (rename target)

/-- The field is the one that was declared, and refers to the class of the declared name. -/
structure FieldDecl.Declares (schema : Schema) (decl : FieldDecl) (field : Field) : Prop where
  name : field.name = decl.name
  kind : field.kind.map (fun target => (schema.class? target).map EntityClass.name) =
    decl.kind.map some
  isDefault : field.isDefault = decl.isDefault
  isVariant : field.isVariant = decl.isVariant

/-- The handles in a schema lead to the classes that the declarations mean. -/
structure Schema.Consistent (naming : String → String) (declared : List ClassDecl)
    (schema : Schema) : Prop where
  placed {id : ClassId} {cls : EntityClass} (known : schema.class? id = some cls) : cls.id = id
  named (name : String) (id : ClassId) :
    schema.classId name = .ok id ↔ ∃ cls, schema.class? id = some cls ∧ cls.name = name
  ordered : schema.classes.map EntityClass.name =
    declared.map ClassDecl.name ++
      (declared.filter ClassDecl.isSearchable).map fun decl => companionName decl.name
  owned {id : ClassId} {cls : EntityClass} (known : schema.class? id = some cls) :
    ∀ field ∈ cls.fields, field.owner = id
  fields {index : Nat} {decl : ClassDecl} (found : declared[index]? = some decl) :
    ∃ cls, schema.class? ⟨index⟩ = some cls ∧ cls.name = decl.name ∧
      List.Forall₂ (FieldDecl.Declares schema) decl.fields cls.fields
  searchable {id : ClassId} {cls : EntityClass} (known : schema.class? id = some cls) :
    (∃ item, cls.searchItem = some item) ↔
      ∃ decl, declared[id.index]? = some decl ∧ decl.isSearchable = true
  /-- The companion of a class has a field for the entity found and one for the text that
  matched. -/
  companion {id item : ClassId} {cls : EntityClass} (known : schema.class? id = some cls)
    (searched : cls.searchItem = some item) :
    ∃ companion, schema.class? item = some companion ∧
      companion.name = companionName cls.name ∧
      companion.fields = [
        ⟨naming cls.name, item, .entity id, false, false⟩,
        ⟨matchField, item, .scalar .matchText, false, false⟩] ∧
      companion.foundField = some (naming cls.name)
  /-- Companions, and no other classes, say which field holds the entity found. -/
  accompanies {id : ClassId} {cls : EntityClass} (known : schema.class? id = some cls) :
    (∃ field, cls.foundField = some field) ↔
      ∃ other searched, schema.class? other = some searched ∧ searched.searchItem = some id

variable {naming : String → String} {declared decls : List ClassDecl} {schema : Schema}
  {id : ClassId} {cls : EntityClass} {name : String}

theorem map_of_lookUp {kind : FieldKind String} {bound : FieldKind ClassId}
    {nameOf : ClassId → Option String} (looked : kind.lookUp decls = .ok bound)
    (names : ∀ name id, declaredId? decls name = some id → nameOf id = some name) :
    bound.map nameOf = kind.map some := by
  cases kind with
  | scalar type =>
      cases looked
      rfl
  | entity target | optionalEntity target | entityList target | entityMap target =>
      obtain ⟨id, found, rfl⟩ := map_eq_ok_iff.mp looked
      simp only [FieldKind.map, names target id (find_eq_ok_iff.mp found)]

theorem searchable_mem_declared {decl : ClassDecl} {index : Nat}
    (found : (withCompanions naming declared)[index]? = some decl)
    (searchable : decl.isSearchable = true) : declared[index]? = some decl := by
  unfold withCompanions at found
  rw [List.getElem?_append] at found
  split at found
  · exact found
  · obtain ⟨other, _, rfl⟩ := List.mem_map.mp (List.mem_of_getElem? found)
    cases searchable

theorem getElem?_withCompanions {decl : ClassDecl} {index : Nat}
    (found : declared[index]? = some decl) :
    (withCompanions naming declared)[index]? = some decl := by
  obtain ⟨inside, _⟩ := List.getElem?_eq_some_iff.mp found
  rw [withCompanions, List.getElem?_append_left inside, found]

namespace Schema.Builds

theorem name_of_declaredId? (builds : schema.Builds naming declared)
    (declaredName : declaredId? (withCompanions naming declared) name = some id) :
    (schema.class? id).map EntityClass.name = some name := by
  obtain ⟨decl, cls, _, known, bound, named⟩ :=
    exists_class_of_declaredId? builds.binds builds.named declaredName
  rw [known, Option.map_some, bound.name, named]

theorem declares {owner : ClassId} {decl : FieldDecl} {field : Field}
    (builds : schema.Builds naming declared)
    (bound : decl.Binds (withCompanions naming declared) owner field) :
    decl.Declares schema field :=
  ⟨bound.name, map_of_lookUp bound.kind fun _ _ => builds.name_of_declaredId?, bound.isDefault,
    bound.isVariant⟩

theorem classId_eq_ok_iff (builds : schema.Builds naming declared) :
    schema.classId name = .ok id ↔ ∃ cls, schema.class? id = some cls ∧ cls.name = name := by
  have placed {id : ClassId} {cls : EntityClass} (known : schema.class? id = some cls) :
      cls.id = id := builds.wellFormed.placed known
  constructor
  · intro found
    obtain ⟨cls, searched, rfl⟩ := map_eq_ok_iff.mp found
    unfold Schema.classNamed at searched
    split at searched
    · rename_i first
      cases searched
      obtain ⟨index, there⟩ := List.getElem?_of_mem (List.mem_of_find?_eq_some first)
      have known : schema.class? ⟨index⟩ = some cls := there
      exact ⟨cls, (placed known).symm ▸ known, by simpa using List.find?_some first⟩
    · cases searched
  · rintro ⟨cls, known, rfl⟩
    obtain ⟨decl, found, bound⟩ := builds.exists_decl known
    have declaredName := (declaredId?_eq_some_iff builds.named).mpr ⟨decl, found, bound.name.symm⟩
    obtain ⟨same, knownSame, named⟩ := builds.classNamed_eq_ok declaredName
    cases known.symm.trans knownSame
    rw [Schema.classId, named]
    exact congrArg Except.ok (placed known)

/-- Declared classes come first, and behind them the companions in the order of their classes. -/
theorem names_eq_append (builds : schema.Builds naming declared) :
    schema.classes.map EntityClass.name =
      declared.map ClassDecl.name ++
        (declared.filter ClassDecl.isSearchable).map fun decl => companionName decl.name := by
  rw [builds.names_classes, withCompanions, List.map_append, List.map_map]
  rfl

theorem owner_of_mem (builds : schema.Builds naming declared) (known : schema.class? id = some cls)
    {field : Field} (member : field ∈ cls.fields) : field.owner = id := by
  obtain ⟨decl, _, bound⟩ := builds.exists_decl known
  obtain ⟨fieldDecl, _, binds⟩ :=
    FieldValue.exists_related (bindFields_sound bound.fields).2.2.flip member
  exact binds.owner

theorem exists_declared_class {index : Nat} {decl : ClassDecl}
    (builds : schema.Builds naming declared) (found : declared[index]? = some decl) :
    ∃ cls, schema.class? ⟨index⟩ = some cls ∧ cls.name = decl.name ∧
      List.Forall₂ (FieldDecl.Declares schema) decl.fields cls.fields := by
  obtain ⟨cls, known, bound⟩ := builds.exists_class_at (getElem?_withCompanions found)
  exact ⟨cls, known, bound.name, (bindFields_sound bound.fields).2.2.imp fun _ _ => builds.declares⟩

theorem searchable_iff (builds : schema.Builds naming declared)
    (known : schema.class? id = some cls) :
    (∃ item, cls.searchItem = some item) ↔
      ∃ decl, declared[id.index]? = some decl ∧ decl.isSearchable = true := by
  obtain ⟨decl, found, bound⟩ := builds.exists_decl known
  constructor
  · rintro ⟨item, searched⟩
    rw [bound.searchItem] at searched
    split at searched
    · rename_i searchable
      exact ⟨decl, searchable_mem_declared found searchable, searchable⟩
    · cases searched
  · rintro ⟨same, foundSame, searchable⟩
    cases found.symm.trans (getElem?_withCompanions foundSame)
    rw [bound.searchItem, if_pos searchable]
    exact exists_declaredId?_iff.mpr
      ⟨_, companion_mem searchable (List.mem_of_getElem? found), rfl⟩

theorem companion_of_searchItem (builds : schema.Builds naming declared)
    (known : schema.class? id = some cls) {item : ClassId} (searched : cls.searchItem = some item) :
    ∃ companion, schema.class? item = some companion ∧
      companion.name = companionName cls.name ∧
      companion.fields = [
        ⟨naming cls.name, item, .entity id, false, false⟩,
        ⟨matchField, item, .scalar .matchText, false, false⟩] ∧
      companion.foundField = some (naming cls.name) := by
  obtain ⟨decl, companion, found, searchable, knownCompanion, bound⟩ :=
    builds.exists_companion known searched
  obtain ⟨same, foundSame, boundSame⟩ := builds.exists_decl known
  cases found.symm.trans foundSame
  have fields := builds.fields_companion found bound
  have entityField := foundField?_companion searchable (List.mem_of_getElem? found)
  rw [boundSame.name]
  exact ⟨companion, knownCompanion, bound.name, fields, bound.foundField.trans entityField⟩

theorem accompanies_iff (builds : schema.Builds naming declared)
    (known : schema.class? id = some cls) :
    (∃ field, cls.foundField = some field) ↔
      ∃ other searched, schema.class? other = some searched ∧ searched.searchItem = some id := by
  constructor
  · rintro ⟨field, holds⟩
    obtain ⟨decl, found, bound⟩ := builds.exists_decl known
    rw [bound.foundField] at holds
    obtain ⟨searchedDecl, first, rfl⟩ := Option.map_eq_some_iff.mp holds
    obtain ⟨member, searchable⟩ := List.mem_filter.mp (List.mem_of_find?_eq_some first)
    have named : companionName searchedDecl.name = decl.name := by simpa using List.find?_some first
    obtain ⟨index, foundSearched⟩ := List.getElem?_of_mem member
    obtain ⟨searched, knownSearched, boundSearched⟩ := builds.exists_class_at foundSearched
    refine ⟨⟨index⟩, searched, knownSearched, ?_⟩
    rw [boundSearched.searchItem, if_pos searchable, named]
    exact (declaredId?_eq_some_iff builds.named).mpr ⟨decl, found, rfl⟩
  · rintro ⟨other, searched, knownSearched, searchItem⟩
    obtain ⟨companion, knownCompanion, _, _, holds⟩ :=
      builds.companion_of_searchItem knownSearched searchItem
    cases known.symm.trans knownCompanion
    exact ⟨_, holds⟩

theorem consistent (builds : schema.Builds naming declared) :
    schema.Consistent naming declared where
  placed := builds.wellFormed.placed
  named _ _ := builds.classId_eq_ok_iff
  ordered := builds.names_eq_append
  owned known _ := builds.owner_of_mem known
  fields := builds.exists_declared_class
  searchable := builds.searchable_iff
  companion known searched := builds.companion_of_searchItem known searched
  accompanies := builds.accompanies_iff

end Schema.Builds

/-- In every schema that is built, handles lead to the classes that the declarations mean. -/
theorem Schema.handles_consistent (naming : String → String) (declared : List ClassDecl)
    (schema : Schema) (built : Schema.ofDeclsNaming naming declared = .ok schema) :
    schema.Consistent naming declared :=
  (Schema.builds_of_ofDeclsNaming built).consistent

end EntityResolver

namespace EntityResolver.Atlases

/-- A class has a name like that of a companion, and a field refers to a companion. -/
def atlases : List ClassDecl := [
  { name := "MapSearch"
    fields := [{ name := "map", kind := .entity "Map" }] },
  { name := "Map"
    isSearchable := true
    fields := [{ name := "atlas", kind := .optionalEntity "Atlas" }] },
  { name := "Atlas"
    isSearchable := true
    fields := [{ name := "maps", kind := .entityList "Map" }] },
  { name := "Shelf"
    fields := [{ name := "found", kind := .entityMap "AtlasSearchItem" }] }]

theorem handles_consistent_atlases :
    ∃ schema, Schema.ofDecls atlases = .ok schema ∧
      schema.Consistent Text.snakeCase atlases ∧
      schema.classes.map EntityClass.name =
        ["MapSearch", "Map", "Atlas", "Shelf", "MapSearchItem", "AtlasSearchItem"] ∧
      schema.classId "AtlasSearchItem" = .ok ⟨5⟩ ∧
      (schema.class? ⟨2⟩).bind EntityClass.searchItem = some ⟨5⟩ ∧
      (schema.class? ⟨5⟩).bind EntityClass.foundField = some "atlas" := by
  have accepted : (Schema.ofDecls atlases).isOk = true := by decide +kernel
  cases built : Schema.ofDecls atlases with
  | error failure =>
      rw [built] at accepted
      cases accepted
  | ok schema =>
      have consistent := Schema.handles_consistent Text.snakeCase atlases schema built
      refine ⟨schema, rfl, consistent, consistent.ordered, ?_⟩
      have evaluated : (Schema.ofDecls atlases).map (fun schema =>
          (schema.classId "AtlasSearchItem", (schema.class? ⟨2⟩).bind EntityClass.searchItem,
            (schema.class? ⟨5⟩).bind EntityClass.foundField)) =
          .ok (.ok ⟨5⟩, some ⟨5⟩, some "atlas") := by decide +kernel
      rw [built] at evaluated
      simpa [Except.map] using evaluated

end EntityResolver.Atlases
