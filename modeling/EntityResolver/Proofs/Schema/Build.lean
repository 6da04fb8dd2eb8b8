import EntityResolver.Proofs.Schema.Search
import EntityResolver.Proofs.Value.Shape

/-!
What holds of every schema that is built from declarations.

Classes stand where their ids say, fields have names of their own and refer to classes of the
schema, default selectors hold the default fields with the default selectors of what these refer
to, and a companion class has a field for the class that it accompanies.
-/

set_option autoImplicit false

namespace EntityResolver

/-- The default fields, each with the default fields of the class that it refers to. -/
def Schema.defaultRow (schema : Schema) : List Field → Selector
  | [] => .empty
  | field :: rest =>
      if field.isDefault then
        .nested field.name (schema.defaultSubselector field) (schema.defaultRow rest)
      else schema.defaultRow rest

structure Schema.WellFormed (schema : Schema) : Prop where
  placed {id : ClassId} {cls : EntityClass} (known : schema.class? id = some cls) : cls.id = id
  distinct {id : ClassId} {cls : EntityClass} (known : schema.class? id = some cls) :
    (cls.fields.map Field.name).Nodup
  closed {id target : ClassId} {cls : EntityClass} {field : Field}
    (known : schema.class? id = some cls) (declared : field ∈ cls.fields)
    (refers : field.kind.target? = some target) : ∃ referred, schema.class? target = some referred
  defaults {id : ClassId} {cls : EntityClass} (known : schema.class? id = some cls) :
    cls.defaultSelector = schema.defaultRow cls.fields
  companions {id item : ClassId} {cls : EntityClass} (known : schema.class? id = some cls)
    (searched : cls.searchItem = some item) :
    ∃ companion found field, schema.class? item = some companion ∧
      companion.foundField = some found ∧ companion.field? found = some field ∧
      field.kind = .entity id

section

variable {α β : Type} {related : α → β → Prop} {first : Option α} {second : Option β}

theorem exists_left_of_rel (pair : Option.Rel related first second) {other : β}
    (found : second = some other) : ∃ one, first = some one ∧ related one other := by
  subst found
  cases pair with
  | some pair => exact ⟨_, rfl, pair⟩

theorem exists_right_of_rel (pair : Option.Rel related first second) {one : α}
    (found : first = some one) : ∃ other, second = some other ∧ related one other := by
  subst found
  cases pair with
  | some pair => exact ⟨_, rfl, pair⟩

end

variable {naming : String → String} {decls : List ClassDecl}

theorem find_eq_ok_iff {name : String} {id : ClassId} :
    FieldKind.lookUp.find decls name = .ok id ↔ declaredId? decls name = some id := by
  unfold FieldKind.lookUp.find
  cases declaredId? decls name <;> simp

theorem lookUp_target {kind : FieldKind String} {bound : FieldKind ClassId}
    (found : kind.lookUp decls = .ok bound) :
    Option.Rel (fun name target => declaredId? decls name = some target) kind.target?
      bound.target? := by
  cases kind with
  | scalar type =>
      cases found
      exact .none
  | _ name =>
      unfold FieldKind.lookUp at found
      obtain ⟨id, looked, rfl⟩ := map_eq_ok_iff.mp found
      exact .some (find_eq_ok_iff.mp looked)

structure FieldDecl.Binds (decls : List ClassDecl) (owner : ClassId) (decl : FieldDecl)
    (field : Field) : Prop where
  name : field.name = decl.name
  owner : field.owner = owner
  kind : decl.kind.lookUp decls = .ok field.kind
  isDefault : field.isDefault = decl.isDefault
  isVariant : field.isVariant = decl.isVariant

theorem FieldDecl.Binds.eq_of_kind {owner : ClassId} {decl : FieldDecl} {field : Field}
    {kind : FieldKind ClassId} (binds : decl.Binds decls owner field)
    (looked : decl.kind.lookUp decls = .ok kind) :
    field = ⟨decl.name, owner, kind, decl.isDefault, decl.isVariant⟩ := by
  cases looked.symm.trans binds.kind
  rw [← binds.name, ← binds.owner, ← binds.isDefault, ← binds.isVariant]

theorem bindFields_sound {cls : String} {owner : ClassId} {seen : List String}
    {declared : List FieldDecl} {fields : List Field}
    (bound : bindFields decls cls owner seen declared = .ok fields) :
    (fields.map Field.name).Nodup ∧ (∀ field ∈ fields, field.name ∉ seen) ∧
      List.Forall₂ (FieldDecl.Binds decls owner) declared fields := by
  induction declared generalizing seen fields with
  | nil =>
      cases bound
      simp
  | cons decl rest inductionHypothesis =>
      unfold bindFields at bound
      split at bound
      · cases bound
      · rename_i kind found
        split at bound
        · cases bound
        · rename_i fresh
          obtain ⟨others, boundToo, rfl⟩ := map_eq_ok_iff.mp bound
          obtain ⟨nodup, unseen, declared⟩ := inductionHypothesis boundToo
          refine ⟨?_, ?_, .cons ⟨rfl, rfl, found, rfl, rfl⟩ declared⟩
          · refine List.nodup_cons.mpr ⟨fun again => ?_, nodup⟩
            obtain ⟨field, member, same⟩ := List.mem_map.mp again
            exact unseen field member (by simp [same])
          · rintro field (_ | ⟨_, member⟩)
            · exact fresh
            · exact fun old => unseen field member (List.mem_cons_of_mem _ old)

theorem bindClass_eq_ok_iff {position : Nat} {decl : ClassDecl} {cls : EntityClass} :
    bindClass naming decls position decl = .ok cls ↔
      ∃ fields, bindFields decls decl.name ⟨position⟩ [] decl.fields = .ok fields ∧
        cls = {
          id := ⟨position⟩
          name := decl.name
          fields := fields
          searchItem :=
            if decl.isSearchable then declaredId? decls (companionName decl.name) else none
          foundField := foundField? naming decls decl.name
          defaultSelector := .empty } := by
  unfold bindClass
  rw [map_eq_ok_iff]
  simp only [eq_comm]

theorem bindClasses_sound {position : Nat} {declared : List ClassDecl} {classes : List EntityClass}
    (bound : bindClasses naming decls position declared = .ok classes) (index : Nat) :
    Option.Rel (fun decl cls => bindClass naming decls (position + index) decl = .ok cls)
      declared[index]? classes[index]? := by
  induction declared generalizing position classes index with
  | nil =>
      cases bound
      exact .none
  | cons decl rest inductionHypothesis =>
      obtain ⟨cls, boundHere, continued⟩ := bind_eq_ok_iff.mp bound
      obtain ⟨others, boundThere, same⟩ := bind_eq_ok_iff.mp continued
      cases same
      cases index with
      | zero => exact .some boundHere
      | succ index =>
          have there := inductionHypothesis boundThere index
          rw [Nat.add_right_comm] at there
          exact there

theorem selectDefaults_eq_defaultRow {schema : Schema}
    {visit : ClassId → Except SchemaError Selector} {fields : List Field} {selector : Selector}
    (agree : ∀ target sub, visit target = .ok sub → sub = schema.defaultSelector target)
    (done : selectDefaults visit fields = .ok selector) : selector = schema.defaultRow fields := by
  induction fields generalizing selector with
  | nil =>
      cases done
      rfl
  | cons field rest inductionHypothesis =>
      cases isDefault : field.isDefault with
      | false =>
          rw [Schema.defaultRow, isDefault]
          rw [selectDefaults_skip isDefault] at done
          exact inductionHypothesis done
      | true =>
          obtain ⟨sub, others, visited, doneThere, rfl⟩ :=
            (selectDefaults_cons_eq_ok_iff isDefault).mp done
          have same : sub = schema.defaultSubselector field := by
            unfold Field.visitTarget at visited
            unfold Schema.defaultSubselector
            cases refers : field.kind.target? with
            | none =>
                rw [refers] at visited
                exact (Except.ok.inj visited).symm
            | some target =>
                rw [refers] at visited
                exact agree target sub visited
          rw [Schema.defaultRow, isDefault, if_pos rfl, same, inductionHypothesis doneThere]

theorem declaredId?_eq_some_iff {name : String} {id : ClassId}
    (distinct : (decls.map ClassDecl.name).Nodup) :
    declaredId? decls name = some id ↔
      ∃ decl, decls[id.index]? = some decl ∧ decl.name = name := by
  unfold declaredId?
  rw [Option.map_eq_some_iff]
  simp only [List.findIdx?_eq_some_iff_getElem, beq_iff_eq]
  constructor
  · rintro ⟨index, ⟨inside, named, _⟩, rfl⟩
    exact ⟨decls[index], List.getElem?_eq_getElem inside, named⟩
  · rintro ⟨decl, found, rfl⟩
    obtain ⟨inside, rfl⟩ := List.getElem?_eq_some_iff.mp found
    refine ⟨id.index, ⟨inside, rfl, fun earlier before same => ?_⟩, rfl⟩
    have insideNames : id.index < (decls.map ClassDecl.name).length := by simpa using inside
    have earlierInside := Nat.lt_trans before insideNames
    have alike : (decls.map ClassDecl.name)[earlier] = (decls.map ClassDecl.name)[id.index] := by
      simpa using same
    exact absurd ((List.Nodup.getElem_inj_iff distinct).mp alike) (Nat.ne_of_lt before)

theorem nodup_of_firstRepeated? {seen names : List String}
    (none : firstRepeated? seen names = none) :
    names.Nodup ∧ ∀ name ∈ names, name ∉ seen := by
  induction names generalizing seen with
  | nil => simp
  | cons name rest inductionHypothesis =>
      unfold firstRepeated? at none
      split at none
      · cases none
      · rename_i fresh
        obtain ⟨nodup, unseen⟩ := inductionHypothesis none
        refine ⟨List.nodup_cons.mpr ⟨fun again => unseen name again (by simp), nodup⟩, ?_⟩
        rintro other (_ | ⟨_, member⟩)
        · exact fresh
        · exact fun old => unseen other member (List.mem_cons_of_mem _ old)

theorem companionName_injective {name other : String}
    (same : companionName name = companionName other) : name = other := by
  exact (String.append_left_inj _).mp same

structure ClassDecl.Binds (naming : String → String) (decls : List ClassDecl) (id : ClassId)
    (decl : ClassDecl) (cls : EntityClass) : Prop where
  placed : cls.id = id
  name : cls.name = decl.name
  fields : bindFields decls decl.name id [] decl.fields = .ok cls.fields
  searchItem :
    cls.searchItem =
      if decl.isSearchable then declaredId? decls (companionName decl.name) else none
  foundField : cls.foundField = foundField? naming decls decl.name

/-- Before default selectors are filled in, classes already are what their declarations come to. -/
theorem bindClasses_binds {classes : List EntityClass}
    (bound : bindClasses naming decls 0 decls = .ok classes) (id : ClassId) :
    Option.Rel (ClassDecl.Binds naming decls id) decls[id.index]?
      ((⟨classes⟩ : Schema).class? id) := by
  have boundHere := bindClasses_sound bound id.index
  rw [Nat.zero_add] at boundHere
  refine FieldValue.optionRel_imp boundHere fun decl cls boundClass => ?_
  obtain ⟨fields, boundFields, rfl⟩ := bindClass_eq_ok_iff.mp boundClass
  exact ⟨rfl, rfl, boundFields, rfl, rfl⟩

theorem bindClasses_placed {classes : List EntityClass}
    (bound : bindClasses naming decls 0 decls = .ok classes) (index : Nat) (cls : EntityClass)
    (found : classes[index]? = some cls) : cls.id = ⟨index⟩ := by
  obtain ⟨_, _, binds⟩ := exists_left_of_rel (bindClasses_binds bound ⟨index⟩) found
  exact binds.placed

structure Schema.Builds (naming : String → String) (schema : Schema) (declared : List ClassDecl) :
    Prop where
  named : ((withCompanions naming declared).map ClassDecl.name).Nodup
  binds (id : ClassId) :
    Option.Rel (ClassDecl.Binds naming (withCompanions naming declared) id)
      (withCompanions naming declared)[id.index]? (schema.class? id)
  defaults {id : ClassId} {cls : EntityClass} (known : schema.class? id = some cls) :
    cls.defaultSelector = schema.defaultRow cls.fields

section Filling

variable {classes : List EntityClass} {selectors : List Selector}

/-- The classes are filled in with the default selectors that following default fields gives. -/
theorem zipWith_withDefaults
    (placed : ∀ (index : Nat) (cls : EntityClass), classes[index]? = some cls → cls.id = ⟨index⟩)
    (done : computeDefaults ⟨classes⟩ = .ok selectors) (index : Nat) :
    Option.Rel (fun cls full => ∃ selector, defaultsOf ⟨classes⟩ ⟨index⟩ = .ok selector ∧
        full = cls.withDefaults selector)
      classes[index]? (List.zipWith EntityClass.withDefaults classes selectors)[index]? := by
  rw [computeDefaults_eq placed] at done
  have expanded := mapM_eq_ok_iff.mp done
  rw [List.getElem?_zipWith]
  cases found : classes[index]? with
  | none => exact .none
  | some cls =>
      obtain ⟨inside, rfl⟩ := List.getElem?_eq_some_iff.mp found
      have insideToo : index < selectors.length := expanded.length_eq ▸ inside
      have here := expanded.get inside insideToo
      rw [List.get_eq_getElem, placed index _ found] at here
      rw [List.getElem?_eq_getElem insideToo]
      exact .some ⟨selectors[index], here, rfl⟩

theorem defaultSelector_of_computeDefaults
    (placed : ∀ (index : Nat) (cls : EntityClass), classes[index]? = some cls → cls.id = ⟨index⟩)
    (done : computeDefaults ⟨classes⟩ = .ok selectors) {index : Nat} {cls : EntityClass}
    (found : (List.zipWith EntityClass.withDefaults classes selectors)[index]? = some cls) :
    cls.defaultSelector =
      Schema.defaultRow ⟨List.zipWith EntityClass.withDefaults classes selectors⟩ cls.fields := by
  obtain ⟨base, foundBase, selector, selected, rfl⟩ :=
    exists_left_of_rel (zipWith_withDefaults placed done index) found
  obtain ⟨less, _, selected⟩ := Schema.expandDefaults_eq_ok selected
  have known : Schema.class? ⟨classes⟩ ⟨index⟩ = some base := foundBase
  rw [Schema.fieldsOf_of_class? known] at selected
  refine selectDefaults_eq_defaultRow (fun target sub visited => ?_) selected
  have related := zipWith_withDefaults placed done target.index
  unfold Schema.defaultSelector Schema.class?
  cases foundTarget : (List.zipWith EntityClass.withDefaults classes selectors)[target.index]? with
  | some full =>
      obtain ⟨_, _, found, selectedToo, rfl⟩ := exists_left_of_rel related foundTarget
      exact Schema.expandDefaults_unique visited selectedToo
  | none =>
      rw [foundTarget] at related
      generalize foundBase : classes[target.index]? = base? at related
      cases related with
      | none =>
          -- A class that is not there has no fields, and so no default fields.
          obtain ⟨_, _, selectedNone⟩ := Schema.expandDefaults_eq_ok visited
          rw [Schema.fieldsOf, show Schema.class? ⟨classes⟩ target = none from foundBase]
            at selectedNone
          exact (Except.ok.inj selectedNone).symm

end Filling

theorem Schema.builds_of_ofDeclsNaming {schema : Schema} {declared : List ClassDecl}
    (built : Schema.ofDeclsNaming naming declared = .ok schema) :
    schema.Builds naming declared := by
  unfold Schema.ofDeclsNaming at built
  extract_lets decls at built
  cases repeated : firstRepeated? [] (decls.map ClassDecl.name) with
  | some name =>
      rw [repeated] at built
      cases built
  | none =>
      rw [repeated] at built
      obtain ⟨classes, bound, continued⟩ := bind_eq_ok_iff.mp built
      obtain ⟨selectors, done, same⟩ := bind_eq_ok_iff.mp continued
      cases same
      have placed := bindClasses_placed bound
      refine ⟨(nodup_of_firstRepeated? repeated).1, fun id => ?_,
        fun known => defaultSelector_of_computeDefaults placed done known⟩
      have boundHere := bindClasses_binds bound id
      have filledHere := zipWith_withDefaults placed done id.index
      unfold Schema.class? at boundHere ⊢
      change Option.Rel (ClassDecl.Binds naming decls id) decls[id.index]?
        (List.zipWith EntityClass.withDefaults classes selectors)[id.index]?
      generalize decls[id.index]? = decl? at boundHere ⊢
      generalize classes[id.index]? = cls? at boundHere filledHere
      generalize (List.zipWith EntityClass.withDefaults classes selectors)[id.index]? = full?
        at filledHere ⊢
      cases boundHere with
      | none =>
          cases filledHere
          exact .none
      | some binds =>
          cases filledHere with
          | some filledHere =>
              obtain ⟨selector, _, rfl⟩ := filledHere
              exact .some ⟨binds.placed, binds.name, binds.fields, binds.searchItem,
                binds.foundField⟩

namespace Schema.Builds

variable {schema : Schema} {declared : List ClassDecl} {id : ClassId} {cls : EntityClass}

theorem exists_decl (builds : schema.Builds naming declared) (known : schema.class? id = some cls) :
    ∃ decl, (withCompanions naming declared)[id.index]? = some decl ∧
      decl.Binds naming (withCompanions naming declared) id cls :=
  exists_left_of_rel (builds.binds id) known

theorem exists_class {decl : ClassDecl} (builds : schema.Builds naming declared)
    (found : (withCompanions naming declared)[id.index]? = some decl) :
    ∃ cls, schema.class? id = some cls ∧
      decl.Binds naming (withCompanions naming declared) id cls :=
  exists_right_of_rel (builds.binds id) found

theorem companion_mem {decl : ClassDecl} (searchable : decl.isSearchable = true)
    (member : decl ∈ withCompanions naming declared) :
    decl.companion naming ∈ withCompanions naming declared := by
  unfold withCompanions at member ⊢
  rcases List.mem_append.mp member with here | companion
  · exact List.mem_append_right _
      (List.mem_map.mpr ⟨decl, List.mem_filter.mpr ⟨here, searchable⟩, rfl⟩)
  · obtain ⟨other, _, rfl⟩ := List.mem_map.mp companion
    cases searchable

theorem foundField?_companion {decl : ClassDecl} (searchable : decl.isSearchable = true)
    (member : decl ∈ withCompanions naming declared) :
    foundField? naming (withCompanions naming declared) (companionName decl.name) =
      some (naming decl.name) := by
  unfold foundField?
  cases found : ((withCompanions naming declared).filter ClassDecl.isSearchable).find?
      fun other => companionName other.name == companionName decl.name with
  | some other =>
      have same : companionName other.name = companionName decl.name := by
        simpa using List.find?_some found
      rw [Option.map_some, companionName_injective same]
  | none =>
      have missed := List.find?_eq_none.mp found decl (List.mem_filter.mpr ⟨member, searchable⟩)
      simp at missed

theorem fields_companion {decl : ClassDecl} {item : ClassId} {companion : EntityClass}
    (builds : schema.Builds naming declared)
    (found : (withCompanions naming declared)[id.index]? = some decl)
    (binds : (decl.companion naming).Binds naming (withCompanions naming declared) item companion) :
    companion.fields = [
      ⟨naming decl.name, item, .entity id, false, false⟩,
      ⟨matchField, item, .scalar .matchText, false, false⟩] := by
  have here := (declaredId?_eq_some_iff builds.named).mpr ⟨decl, found, rfl⟩
  have looked : (FieldKind.entity decl.name).lookUp (withCompanions naming declared) =
      .ok (.entity id) := map_eq_ok_iff.mpr ⟨id, find_eq_ok_iff.mpr here, rfl⟩
  have fields := (bindFields_sound binds.fields).2.2
  generalize companion.fields = bound at fields ⊢
  rcases fields with _ | ⟨bindsFirst, _ | ⟨bindsSecond, ⟨⟩⟩⟩
  rw [bindsFirst.eq_of_kind looked, bindsSecond.eq_of_kind rfl]

theorem field?_companion {decl : ClassDecl} {item : ClassId} {companion : EntityClass}
    (builds : schema.Builds naming declared)
    (found : (withCompanions naming declared)[id.index]? = some decl)
    (binds : (decl.companion naming).Binds naming (withCompanions naming declared) item companion) :
    ∃ field, companion.field? (naming decl.name) = some field ∧ field.kind = .entity id := by
  unfold EntityClass.field?
  rw [builds.fields_companion found binds]
  exact ⟨_, List.find?_cons_of_pos (beq_self_eq_true _), rfl⟩

theorem matchField_companion {decl : ClassDecl} {item : ClassId} {companion : EntityClass}
    (builds : schema.Builds naming declared)
    (found : (withCompanions naming declared)[id.index]? = some decl)
    (binds : (decl.companion naming).Binds naming (withCompanions naming declared) item companion) :
    ∃ field, companion.field? matchField = some field ∧ field.kind = .scalar .matchText := by
  have nodup := (bindFields_sound binds.fields).1
  unfold EntityClass.field?
  rw [builds.fields_companion found binds] at nodup ⊢
  simp only [List.map_cons, List.map_nil, List.nodup_cons, List.mem_singleton] at nodup
  rw [List.find?_cons_of_neg (by simpa using nodup.1)]
  exact ⟨_, List.find?_cons_of_pos (beq_self_eq_true _), rfl⟩

theorem exists_companion {item : ClassId} (builds : schema.Builds naming declared)
    (known : schema.class? id = some cls) (searched : cls.searchItem = some item) :
    ∃ decl companion, (withCompanions naming declared)[id.index]? = some decl ∧
      decl.isSearchable = true ∧ schema.class? item = some companion ∧
        (decl.companion naming).Binds naming (withCompanions naming declared) item companion := by
  obtain ⟨decl, foundDecl, binds⟩ := builds.exists_decl known
  have member := List.mem_of_getElem? foundDecl
  rw [binds.searchItem] at searched
  split at searched
  · rename_i searchable
    obtain ⟨companionDecl, foundCompanion, sameName⟩ :=
      (declaredId?_eq_some_iff builds.named).mp searched
    have same : companionDecl = decl.companion naming :=
      List.inj_on_of_nodup_map builds.named (List.mem_of_getElem? foundCompanion)
        (companion_mem searchable member) sameName
    subst same
    obtain ⟨companion, knownCompanion, bindsCompanion⟩ := builds.exists_class foundCompanion
    exact ⟨decl, companion, foundDecl, searchable, knownCompanion, bindsCompanion⟩
  · cases searched

theorem wellFormed (builds : schema.Builds naming declared) : schema.WellFormed where
  placed known := by
    obtain ⟨decl, _, binds⟩ := builds.exists_decl known
    exact binds.placed
  distinct known := by
    obtain ⟨decl, _, binds⟩ := builds.exists_decl known
    exact (bindFields_sound binds.fields).1
  closed known member refers := by
    obtain ⟨decl, _, binds⟩ := builds.exists_decl known
    obtain ⟨fieldDecl, _, bindsField⟩ :=
      FieldValue.exists_related (bindFields_sound binds.fields).2.2.flip member
    obtain ⟨name, _, declaredTarget⟩ := exists_left_of_rel (lookUp_target bindsField.kind) refers
    obtain ⟨targetDecl, foundTarget, _⟩ :=
      (declaredId?_eq_some_iff builds.named).mp declaredTarget
    obtain ⟨referred, knownTarget, _⟩ := builds.exists_class foundTarget
    exact ⟨referred, knownTarget⟩
  defaults known := builds.defaults known
  companions known searched := by
    obtain ⟨decl, companion, foundDecl, searchable, knownCompanion, binds⟩ :=
      builds.exists_companion known searched
    obtain ⟨field, entityField⟩ := builds.field?_companion foundDecl binds
    have member := List.mem_of_getElem? foundDecl
    exact ⟨companion, _, field, knownCompanion,
      binds.foundField.trans (foundField?_companion searchable member), entityField⟩

end Schema.Builds

theorem Schema.wellFormed_of_ofDeclsNaming {naming : String → String} {schema : Schema}
    {declared : List ClassDecl} (built : Schema.ofDeclsNaming naming declared = .ok schema) :
    schema.WellFormed :=
  (Schema.builds_of_ofDeclsNaming built).wellFormed

end EntityResolver
