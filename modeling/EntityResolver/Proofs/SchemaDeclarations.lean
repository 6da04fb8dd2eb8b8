import EntityResolver.Proofs.Selector.Formed
import EntityResolver.Proofs.Value.Matched

/-!
# Declarations that make a schema

Declarations make a schema exactly if no class and no field of a class is declared twice, every
reference is to a declared class and default fields do not lead from a class back to it. The default
selectors are then those that the declarations describe. Where default fields are the reason for
which there is no schema, the class that the failure names is one that they lead back to.
-/

set_option autoImplicit false

namespace EntityResolver

/-- A default field of the class with the one name refers to the class with the other. -/
def DefaultRefers (decls : List ClassDecl) (name target : String) : Prop :=
  ∃ decl ∈ decls, decl.name = name ∧
    ∃ field ∈ decl.fields, field.isDefault = true ∧ field.kind.target? = some target

/-- The declarations, those of companion classes among them, fit together. -/
structure WellDeclared (decls : List ClassDecl) : Prop where
  distinct : (decls.map ClassDecl.name).Nodup
  closed : ∀ decl ∈ decls, ∀ field ∈ decl.fields, ∀ target, field.kind.target? = some target →
    ∃ referred ∈ decls, referred.name = target
  fields : ∀ decl ∈ decls, (decl.fields.map FieldDecl.name).Nodup
  acyclic : ∀ name, ¬ Relation.TransGen (DefaultRefers decls) name name

/-- What a default selector says of a declared field: it is selected with the default selector of
the class that it refers to, and with nothing if it is a scalar. -/
def FieldDecl.SelectedAs (schema : Schema) (field : FieldDecl)
    (entry : String × Selector.Entry) : Prop :=
  entry.1 = field.name ∧
    match field.kind.target? with
    | some target => ∃ referred, schema.classNamed target = .ok referred ∧
        entry.2 = .nested referred.defaultSelector
    | none => entry.2 = .nested .empty

/-- The class has the name of the declaration, and is described by default by the default fields of
the declaration and no others, in their order. -/
def ClassDecl.Describes (schema : Schema) (decl : ClassDecl) (cls : EntityClass) : Prop :=
  cls.name = decl.name ∧
    List.Forall₂ (FieldDecl.SelectedAs schema) (decl.fields.filter FieldDecl.isDefault)
      cls.defaultSelector.entries

section

variable {naming : String → String} {decls : List ClassDecl} {name : String} {id : ClassId}

theorem firstRepeated?_eq_none {seen names : List String} (nodup : names.Nodup)
    (unseen : ∀ name ∈ names, name ∉ seen) : firstRepeated? seen names = none := by
  induction names generalizing seen with
  | nil => rfl
  | cons name rest inductionHypothesis =>
      obtain ⟨fresh, nodupThere⟩ := List.nodup_cons.mp nodup
      rw [firstRepeated?, if_neg (unseen name List.mem_cons_self)]
      refine inductionHypothesis nodupThere fun other member => ?_
      rw [List.mem_cons, not_or]
      exact ⟨fun same => fresh (same ▸ member), unseen other (List.mem_cons_of_mem _ member)⟩

theorem exists_declaredId?_iff :
    (∃ id, declaredId? decls name = some id) ↔ ∃ decl ∈ decls, decl.name = name := by
  unfold declaredId?
  rw [← Option.isSome_iff_exists]
  simp

theorem exists_lookUp {kind : FieldKind String}
    (known : ∀ target, kind.target? = some target → ∃ decl ∈ decls, decl.name = target) :
    ∃ bound, kind.lookUp decls = .ok bound := by
  cases kind with
  | scalar type => exact ⟨_, rfl⟩
  | _ target =>
      obtain ⟨id, declared⟩ := exists_declaredId?_iff.mpr (known target rfl)
      refine ⟨_, map_eq_ok_iff.mpr ⟨id, find_eq_ok_iff.mpr declared, rfl⟩⟩

theorem exists_bindFields {cls : String} {owner : ClassId} {seen : List String}
    {declared : List FieldDecl}
    (known : ∀ field ∈ declared, ∀ target, field.kind.target? = some target →
      ∃ decl ∈ decls, decl.name = target)
    (nodup : (declared.map FieldDecl.name).Nodup) (unseen : ∀ field ∈ declared, field.name ∉ seen) :
    ∃ fields, bindFields decls cls owner seen declared = .ok fields := by
  induction declared generalizing seen with
  | nil => exact ⟨_, rfl⟩
  | cons field rest inductionHypothesis =>
      obtain ⟨fresh, nodupThere⟩ := List.nodup_cons.mp nodup
      obtain ⟨kind, looked⟩ := exists_lookUp (known field List.mem_cons_self)
      have unseenThere : ∀ other ∈ rest, other.name ∉ field.name :: seen := by
        intro other member
        rw [List.mem_cons, not_or]
        refine ⟨fun same => fresh ?_, unseen other (List.mem_cons_of_mem _ member)⟩
        exact List.mem_map.mpr ⟨other, member, same⟩
      obtain ⟨fields, bound⟩ := inductionHypothesis
        (fun other member => known other (List.mem_cons_of_mem _ member)) nodupThere unseenThere
      rw [bindFields]
      simp only [looked]
      rw [if_neg (unseen field List.mem_cons_self), bound]
      exact ⟨_, rfl⟩

theorem bindFields_ne_cycle {cls : String} {owner : ClassId} {seen : List String}
    {declared : List FieldDecl} :
    bindFields decls cls owner seen declared ≠ .error (.defaultCycle name) := by
  induction declared generalizing seen with
  | nil => nofun
  | cons field rest inductionHypothesis =>
      intro failed
      unfold bindFields at failed
      split at failed
      · cases failed
      · split at failed
        · cases failed
        · exact inductionHypothesis (map_eq_error_iff.mp failed)

theorem exists_bindClasses {position : Nat} {declared : List ClassDecl}
    (bound : ∀ decl ∈ declared, ∀ owner, ∃ fields,
      bindFields decls decl.name owner [] decl.fields = .ok fields) :
    ∃ classes, bindClasses naming decls position declared = .ok classes := by
  induction declared generalizing position with
  | nil => exact ⟨_, rfl⟩
  | cons decl rest inductionHypothesis =>
      obtain ⟨fields, boundFields⟩ := bound decl List.mem_cons_self ⟨position⟩
      have boundHere : bindClass naming decls position decl = .ok _ :=
        bindClass_eq_ok_iff.mpr ⟨fields, boundFields, rfl⟩
      obtain ⟨classes, boundThere⟩ :
          ∃ classes, bindClasses naming decls (position + 1) rest = .ok classes :=
        inductionHypothesis fun other member => bound other (List.mem_cons_of_mem _ member)
      exact ⟨_, bind_eq_ok_iff.mpr ⟨_, boundHere, bind_eq_ok_iff.mpr ⟨_, boundThere, rfl⟩⟩⟩

theorem bindClasses_ne_cycle {position : Nat} {declared : List ClassDecl} :
    bindClasses naming decls position declared ≠ .error (.defaultCycle name) := by
  induction declared generalizing position with
  | nil => nofun
  | cons decl rest inductionHypothesis =>
      intro failed
      rcases bind_eq_error_iff.mp failed with here | ⟨cls, _, continued⟩
      · exact bindFields_ne_cycle (map_eq_error_iff.mp here)
      · rcases bind_eq_error_iff.mp continued with there | ⟨classes, _, done⟩
        · exact inductionHypothesis there
        · cases done

section Bound

variable {schema : Schema}
  (binds : ∀ id : ClassId,
    Option.Rel (ClassDecl.Binds naming decls id) decls[id.index]? (schema.class? id))
  (distinct : (decls.map ClassDecl.name).Nodup)

include binds distinct

theorem exists_class_of_declaredId? (declared : declaredId? decls name = some id) :
    ∃ decl cls, decl ∈ decls ∧ schema.class? id = some cls ∧ decl.Binds naming decls id cls ∧
      decl.name = name := by
  obtain ⟨decl, found, named⟩ := (declaredId?_eq_some_iff distinct).mp declared
  obtain ⟨cls, known, bound⟩ := exists_right_of_rel (binds id) found
  exact ⟨decl, cls, List.mem_of_getElem? found, known, bound, named⟩

theorem defaultRefers_of_expands {one other : ClassId} (expands : schema.Expands one other) :
    DefaultRefers decls (schema.className one) (schema.className other) := by
  obtain ⟨cls, known, field, member, isDefault, refers⟩ := expands
  obtain ⟨decl, found, bound⟩ := exists_left_of_rel (binds one) known
  obtain ⟨fieldDecl, declared, bindsField⟩ :=
    FieldValue.exists_related (bindFields_sound bound.fields).2.2.flip member
  obtain ⟨target, named, declaredTarget⟩ :=
    exists_left_of_rel (lookUp_target bindsField.kind) refers
  obtain ⟨referred, inner, _, knownInner, bindsInner, sameName⟩ :=
    exists_class_of_declaredId? binds distinct declaredTarget
  refine ⟨decl, List.mem_of_getElem? found, ?_, fieldDecl, declared, ?_, ?_⟩
  · simp [Schema.className, known, bound.name]
  · exact bindsField.isDefault.symm.trans isDefault
  · simp [Schema.className, knownInner, bindsInner.name, sameName, named]

theorem expands_of_defaultRefers {target : String} (refers : DefaultRefers decls name target) :
    ∃ one other, declaredId? decls name = some one ∧ declaredId? decls target = some other ∧
      schema.Expands one other := by
  obtain ⟨decl, member, named, field, declared, isDefault, refersTo⟩ := refers
  obtain ⟨one, declaredOne⟩ := exists_declaredId?_iff.mpr ⟨decl, member, named⟩
  obtain ⟨same, cls, memberSame, known, bound, namedSame⟩ :=
    exists_class_of_declaredId? binds distinct declaredOne
  obtain rfl : same = decl :=
    List.inj_on_of_nodup_map distinct memberSame member (namedSame.trans named.symm)
  obtain ⟨boundField, memberField, bindsField⟩ :=
    FieldValue.exists_related (bindFields_sound bound.fields).2.2 declared
  obtain ⟨other, refersOther, declaredOther⟩ :=
    exists_right_of_rel (lookUp_target bindsField.kind) refersTo
  exact ⟨one, other, declaredOne, declaredOther, cls, known, boundField, memberField,
    bindsField.isDefault.trans isDefault, refersOther⟩

end Bound

theorem forall₂_of_positions {α β : Type} {related : Nat → α → β → Prop} {ones : List α}
    {others : List β} (pairs : ∀ index, Option.Rel (related index) ones[index]? others[index]?) :
    List.Forall₂ (fun one other => ∃ index, others[index]? = some other ∧ related index one other)
      ones others := by
  induction ones generalizing others related with
  | nil =>
      cases others with
      | nil => exact .nil
      | cons other others => exact nomatch pairs 0
  | cons one ones inductionHypothesis =>
      cases others with
      | nil => exact nomatch pairs 0
      | cons other others =>
          have first : Option.Rel (related 0) (some one) (some other) := pairs 0
          cases first with
          | some here =>
              refine .cons ⟨0, rfl, here⟩ ?_
              have behind := inductionHypothesis fun index => pairs (index + 1)
              exact behind.imp fun _ _ ⟨index, found, there⟩ => ⟨index + 1, found, there⟩

/-- Names are kept where things come to others with their names. -/
theorem names_of_forall₂ {α β : Type} {related : α → β → Prop} {ones : List α} {others : List β}
    {nameOf : α → String} {nameOfToo : β → String}
    (same : ∀ one other, related one other → nameOfToo other = nameOf one)
    (pairs : List.Forall₂ related ones others) : others.map nameOfToo = ones.map nameOf := by
  induction pairs with
  | nil => rfl
  | cons pair _ inductionHypothesis =>
      rw [List.map_cons, List.map_cons, same _ _ pair, inductionHypothesis]

theorem entries_defaultRow (schema : Schema) (fields : List Field) :
    (schema.defaultRow fields).entries = (fields.filter Field.isDefault).map fun field =>
      (field.name, .nested (schema.defaultSubselector field)) := by
  induction fields with
  | nil => rfl
  | cons field rest inductionHypothesis =>
      cases isDefault : field.isDefault with
      | false => simpa [Schema.defaultRow, isDefault] using inductionHypothesis
      | true => simpa [Schema.defaultRow, isDefault, Selector.entries] using inductionHypothesis

theorem Schema.WellFormed.sizeOf_lt_of_expands {schema : Schema} (wellFormed : schema.WellFormed)
    {one other : ClassId} (expands : schema.Expands one other) :
    sizeOf (schema.defaultSelector other) < sizeOf (schema.defaultSelector one) := by
  obtain ⟨cls, known, field, declared, isDefault, refers⟩ := expands
  have smaller := Selector.sizeOf_defaultSubselector_lt schema declared isDefault
  simpa [Schema.defaultSelector, Schema.defaultSubselector, refers, known,
    wellFormed.defaults known]
    using smaller

theorem Schema.WellFormed.expands_irrefl {schema : Schema} (wellFormed : schema.WellFormed)
    (id : ClassId) : ¬ Relation.TransGen schema.Expands id id := by
  have smaller {one other : ClassId} (expands : Relation.TransGen schema.Expands one other) :
      sizeOf (schema.defaultSelector other) < sizeOf (schema.defaultSelector one) := by
    induction expands with
    | single expands => exact wellFormed.sizeOf_lt_of_expands expands
    | tail _ expands inductionHypothesis =>
        exact Nat.lt_trans (wellFormed.sizeOf_lt_of_expands expands) inductionHypothesis
  exact fun circle => Nat.lt_irrefl _ (smaller circle)

namespace Schema.Builds

variable {schema : Schema} {declared : List ClassDecl}

theorem exists_class_at {decl : ClassDecl} {index : Nat} (builds : schema.Builds naming declared)
    (found : (withCompanions naming declared)[index]? = some decl) :
    ∃ cls, schema.class? ⟨index⟩ = some cls ∧
      decl.Binds naming (withCompanions naming declared) ⟨index⟩ cls :=
  exists_right_of_rel (builds.binds ⟨index⟩) found

/-- Where a schema is built, the declarations fit together. -/
theorem wellDeclared (builds : schema.Builds naming declared) :
    WellDeclared (withCompanions naming declared) where
  distinct := builds.named
  closed decl member field declaredField target refers := by
    obtain ⟨index, found⟩ := List.getElem?_of_mem member
    obtain ⟨cls, _, bound⟩ := builds.exists_class_at found
    obtain ⟨boundField, _, bindsField⟩ :=
      FieldValue.exists_related (bindFields_sound bound.fields).2.2 declaredField
    obtain ⟨other, _, declaredOther⟩ :=
      exists_right_of_rel (lookUp_target bindsField.kind) refers
    exact exists_declaredId?_iff.mp ⟨other, declaredOther⟩
  fields decl member := by
    obtain ⟨index, found⟩ := List.getElem?_of_mem member
    obtain ⟨cls, _, bound⟩ := builds.exists_class_at found
    obtain ⟨nodup, _, fields⟩ := bindFields_sound bound.fields
    rwa [names_of_forall₂ (fun _ _ binds => binds.name) fields] at nodup
  acyclic name circle := by
    let position (name : String) : ClassId :=
      (declaredId? (withCompanions naming declared) name).getD ⟨0⟩
    refine builds.wellFormed.expands_irrefl (position name)
      (circle.lift position fun one other refers => ?_)
    obtain ⟨first, second, declaredFirst, declaredSecond, expands⟩ :=
      expands_of_defaultRefers builds.binds builds.named refers
    simpa [Function.onFun, position, declaredFirst, declaredSecond] using expands

theorem names_classes (builds : schema.Builds naming declared) :
    schema.classes.map EntityClass.name = (withCompanions naming declared).map ClassDecl.name :=
  names_of_forall₂ (fun _ _ ⟨_, _, binds⟩ => binds.name)
    (forall₂_of_positions fun index => builds.binds ⟨index⟩)

theorem classNamed_eq_ok {name : String} (builds : schema.Builds naming declared)
    (declaredName : declaredId? (withCompanions naming declared) name = some id) :
    ∃ cls, schema.class? id = some cls ∧ schema.classNamed name = .ok cls := by
  obtain ⟨decl, cls, _, known, bound, named⟩ :=
    exists_class_of_declaredId? builds.binds builds.named declaredName
  have distinct : (schema.classes.map EntityClass.name).Nodup := builds.names_classes ▸ builds.named
  have hasName : cls.name = name := bound.name.trans named
  refine ⟨cls, known, ?_⟩
  unfold Schema.classNamed
  cases found : schema.classes.find? fun cls => cls.name == name with
  | none =>
      have missed := List.find?_eq_none.mp found cls (List.mem_of_getElem? known)
      simp [hasName] at missed
  | some other =>
      have otherName : other.name = name := by simpa using List.find?_some found
      exact congrArg Except.ok (List.inj_on_of_nodup_map distinct (List.mem_of_find?_eq_some found)
        (List.mem_of_getElem? known) (otherName.trans hasName.symm))

theorem selectedAs {owner : ClassId} {decl : FieldDecl} {field : Field}
    (builds : schema.Builds naming declared)
    (bound : decl.Binds (withCompanions naming declared) owner field) :
    decl.SelectedAs schema (field.name, .nested (schema.defaultSubselector field)) := by
  refine ⟨bound.name, ?_⟩
  rcases optionRel_cases (lookUp_target bound.kind) with
    ⟨plain, plainToo⟩ | ⟨name, target, refers, refersToo, declaredName⟩
  · simp [plain, Schema.defaultSubselector, plainToo]
  · obtain ⟨cls, known, named⟩ := builds.classNamed_eq_ok declaredName
    simp [refers, named, Schema.defaultSubselector, refersToo, Schema.defaultSelector, known]

/-- The default selectors are those that the declarations describe. -/
theorem describes (builds : schema.Builds naming declared) :
    List.Forall₂ (ClassDecl.Describes schema) (withCompanions naming declared) schema.classes := by
  refine (forall₂_of_positions fun index => builds.binds ⟨index⟩).imp fun decl cls => ?_
  rintro ⟨index, (known : schema.class? ⟨index⟩ = some cls), binds⟩
  refine ⟨binds.name, ?_⟩
  rw [builds.defaults known, entries_defaultRow, List.forall₂_map_right_iff]
  have kept : List.Forall₂ (FieldDecl.Binds (withCompanions naming declared) ⟨index⟩)
      (decl.fields.filter FieldDecl.isDefault) (cls.fields.filter Field.isDefault) :=
    List.rel_filter (fun _ _ bindsField => by simp [bindsField.isDefault])
      (bindFields_sound binds.fields).2.2
  exact kept.imp fun fieldDecl field bindsField => builds.selectedAs bindsField

end Schema.Builds

theorem exists_of_wellDeclared {declared : List ClassDecl}
    (well : WellDeclared (withCompanions naming declared)) :
    ∃ schema, Schema.ofDeclsNaming naming declared = .ok schema := by
  have distinct : firstRepeated? [] ((withCompanions naming declared).map ClassDecl.name) = none :=
    firstRepeated?_eq_none well.distinct fun _ _ => List.not_mem_nil
  obtain ⟨classes, bound⟩ :
      ∃ classes, bindClasses naming (withCompanions naming declared) 0
        (withCompanions naming declared) = .ok classes :=
    exists_bindClasses fun decl member owner =>
      exists_bindFields (well.closed decl member) (well.fields decl member)
        fun _ _ => List.not_mem_nil
  cases computed : computeDefaults ⟨classes⟩ with
  | ok selectors =>
      refine ⟨⟨List.zipWith EntityClass.withDefaults classes selectors⟩, ?_⟩
      unfold Schema.ofDeclsNaming
      extract_lets decls
      rw [distinct]
      exact bind_eq_ok_iff.mpr ⟨classes, bound, bind_eq_ok_iff.mpr ⟨selectors, computed, rfl⟩⟩
  | error failure =>
      -- Classes on a circle were declared so, and declarations that fit together have none.
      obtain ⟨cls, _, circle⟩ := computeDefaults_error (bindClasses_placed bound) computed
      have circleDeclared := circle.lift (Schema.className ⟨classes⟩) fun _ _ =>
        defaultRefers_of_expands (bindClasses_binds bound) well.distinct
      exact absurd circleDeclared (well.acyclic _)

/-- Where default fields are the reason for which there is no schema, they lead back to the class
that the failure names. -/
theorem refers_of_defaultCycle {declared : List ClassDecl}
    (failed : Schema.ofDeclsNaming naming declared = .error (.defaultCycle name)) :
    Relation.TransGen (DefaultRefers (withCompanions naming declared)) name name := by
  unfold Schema.ofDeclsNaming at failed
  extract_lets decls at failed
  cases repeated : firstRepeated? [] (decls.map ClassDecl.name) with
  | some name =>
      rw [repeated] at failed
      cases failed
  | none =>
      rw [repeated] at failed
      have distinct := (nodup_of_firstRepeated? repeated).1
      rcases bind_eq_error_iff.mp failed with failed | ⟨classes, bound, continued⟩
      · exact absurd failed bindClasses_ne_cycle
      · rcases bind_eq_error_iff.mp continued with failed | ⟨selectors, _, done⟩
        · obtain ⟨cls, named, circle⟩ := computeDefaults_error (bindClasses_placed bound) failed
          cases named
          exact circle.lift (Schema.className ⟨classes⟩) fun _ _ =>
            defaultRefers_of_expands (bindClasses_binds bound) distinct
        · cases done

/-- There is a schema exactly if the declarations fit together. Its classes are then those declared,
with the default selectors that the declarations describe; and where there is none because of
default fields in a circle, the class that the failure names is on one. -/
theorem Schema.ofDeclsNaming_sound_and_complete (naming : String → String)
    (declared : List ClassDecl) :
    ((∃ schema, Schema.ofDeclsNaming naming declared = .ok schema) ↔
        WellDeclared (withCompanions naming declared)) ∧
      (∀ schema, Schema.ofDeclsNaming naming declared = .ok schema →
        List.Forall₂ (ClassDecl.Describes schema) (withCompanions naming declared)
          schema.classes) ∧
      ∀ name, Schema.ofDeclsNaming naming declared = .error (.defaultCycle name) →
        Relation.TransGen (DefaultRefers (withCompanions naming declared)) name name := by
  refine ⟨⟨?_, exists_of_wellDeclared⟩, ?_, fun name => refers_of_defaultCycle⟩
  · rintro ⟨schema, built⟩
    exact (Schema.builds_of_ofDeclsNaming built).wellDeclared
  · exact fun schema built => (Schema.builds_of_ofDeclsNaming built).describes

/-- Works that can be searched, with authors who have works. -/
def worksWithAuthors : List ClassDecl := [
  { name := "Work"
    isSearchable := true
    fields := [
      { name := "title", kind := .scalar .string, isDefault := true },
      { name := "authors", kind := .entityList "Author", isDefault := true }] },
  { name := "Author"
    fields := [
      { name := "name", kind := .scalar .string, isDefault := true },
      { name := "works", kind := .entityList "Work" }] }]

/-- A shelf leads to works and authors, which lead to each other but not to a shelf. -/
def shelfOfWorks : List ClassDecl := [
  { name := "Shelf"
    fields := [{ name := "works", kind := .entityList "Work", isDefault := true }] },
  { name := "Work", fields := [{ name := "author", kind := .entity "Author", isDefault := true }] },
  { name := "Author", fields := [{ name := "work", kind := .entity "Work", isDefault := true }] }]

theorem Schema.ofDeclsNaming_works_and_shelf :
    (∃ schema, Schema.ofDeclsNaming Text.snakeCase worksWithAuthors = .ok schema ∧
        List.Forall₂ (ClassDecl.Describes schema)
          (withCompanions Text.snakeCase worksWithAuthors) schema.classes) ∧
      Schema.ofDeclsNaming Text.snakeCase shelfOfWorks = .error (.defaultCycle "Work") ∧
      Relation.TransGen (DefaultRefers (withCompanions Text.snakeCase shelfOfWorks)) "Work"
        "Work" := by
  have accepted : (Schema.ofDeclsNaming Text.snakeCase worksWithAuthors).isOk = true := by
    decide +kernel
  have failed :
      Schema.ofDeclsNaming Text.snakeCase shelfOfWorks = .error (.defaultCycle "Work") := by
    decide +kernel
  obtain ⟨schema, built⟩ :
      ∃ schema, Schema.ofDeclsNaming Text.snakeCase worksWithAuthors = .ok schema := by
    cases built : Schema.ofDeclsNaming Text.snakeCase worksWithAuthors with
    | ok schema => exact ⟨schema, rfl⟩
    | error failure =>
        rw [built] at accepted
        cases accepted
  refine ⟨⟨schema, built, ?_⟩, failed, ?_⟩
  · exact (Schema.ofDeclsNaming_sound_and_complete Text.snakeCase worksWithAuthors).2.1 schema
      built
  · exact (Schema.ofDeclsNaming_sound_and_complete Text.snakeCase shelfOfWorks).2.2 "Work" failed

end

end EntityResolver
