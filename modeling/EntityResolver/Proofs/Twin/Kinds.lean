import EntityResolver.Proofs.Catalog.Registered
import EntityResolver.Proofs.Selector.Confined
import EntityResolver.Proofs.Twin.Demands

/-!
Runs with registered methods keep to the kinds of fields.

A run next to itself differs in nothing, so what the pairing says of it is that values keep to the
kinds of their fields and that no failure is put down to a method.
-/

set_option autoImplicit false

namespace EntityResolver

theorem SearchMethod.fields_of_itemField {schema : Schema} {naming : String → String}
    {declared : List ClassDecl} {method : SearchMethod} {item : ClassId} {field : Field}
    (builds : schema.Builds naming declared)
    (opened : method.itemField schema = .ok (item, field)) :
    schema.field? item field.name = some field ∧ field.kind = .entity method.cls ∧
      ∃ text, schema.field? item matchField = some text ∧ text.kind = .scalar .matchText := by
  unfold SearchMethod.itemField at opened
  split at opened
  · cases opened
  · rename_i searched
    obtain ⟨cls, known, searchItem⟩ := Option.bind_eq_some_iff.mp searched
    split at opened
    · rename_i found
      cases opened
      obtain ⟨decl, companion, foundDecl, _, knownItem, binds⟩ :=
        builds.exists_companion known searchItem
      obtain ⟨_, name, fieldToo, knownToo, named, foundToo, kind⟩ :=
        builds.wellFormed.companions known searchItem
      obtain ⟨text, foundText, textual⟩ := builds.matchField_companion foundDecl binds
      rw [knownToo, Option.bind_some, named, Option.bind_some, foundToo] at found
      cases found
      refine ⟨?_, kind, text, ?_, textual⟩
      · obtain rfl := Selector.EntityClass.name_of_field? foundToo
        rw [Schema.field?, knownToo, Option.bind_some, foundToo]
      · rw [Schema.field?, knownItem, Option.bind_some, foundText]
    · cases opened

namespace Run.Pairing

def kinds (context : RunContext) {naming : String → String} {declared : List ClassDecl}
    (builds : context.catalog.schema.Builds naming declared)
    (checked : context.catalog.Checked)
    (tableless : ∀ method, .table method ∉ context.catalog.getters) :
    Pairing context context.lang where
  permits error := ¬ error.BlamesMethod
  admits cls selector := selector.Distinct ∧ context.catalog.schema.Confines cls selector
  trusts cls name picker := picker.Reads context.catalog.schema cls name
  holds cls name shape := ∃ field, context.catalog.schema.field? cls name = some field ∧
    field.kind.holds shape = true
  apart _ _ _ _ := False
  links := context.catalog.schema.Refers
  permitted blameless := blameless
  distinct admitted := admitted.1
  projects names admitted := ⟨admitted.1.project names, admitted.2.project admitted.1 names⟩
  below admitted member refers := by
    obtain ⟨confined, home⟩ := admitted.2.below admitted.1 member refers
    refine ⟨⟨admitted.1.of_mem_resolved member, confined⟩, fun isRecursive => ?_⟩
    obtain rfl := home isRecursive
    exact ⟨fun _ holds => holds, fun _ links => links⟩
  known trusted unknown := by
    obtain ⟨field, _, known, _⟩ := trusted
    cases known.symm.trans unknown
  refers trusted known scalar := by
    obtain ⟨field, path, knownToo, checked⟩ := trusted
    cases known.symm.trans knownToo
    exact .inl (Picker.eq_scalar_of_fits (Picker.fits_of_check checked) scalar)
  inside trusted refers found := trusted.inside refers found
  linked _ refers := refers
  missing trusted := by
    obtain ⟨field, _, known, _⟩ := trusted
    exact ⟨field, known, by cases field.kind <;> rfl⟩
  scalars trusted read readToo := by
    obtain ⟨field, path, known, checked⟩ := trusted
    exact .inl ⟨Except.ok.inj (readToo.symm.trans read), field, known,
      FieldKind.holds_scalar (Picker.fits_of_check checked) _⟩
  gives trusted known gives := by
    obtain ⟨field, path, knownToo, checked⟩ := trusted
    cases known.symm.trans knownToo
    exact ⟨_, known, gives.holds (Picker.fits_of_check checked)⟩
  nulls _ known := ⟨_, known, by rw [FieldKind.holds_shape, BatchGetter.holds_nullValue]⟩
  revives known holds nonempty := by
    obtain ⟨field, knownToo, holds⟩ := holds
    cases known.symm.trans knownToo
    obtain ⟨target, refers⟩ := FieldKind.target_of_holds holds nonempty
    exact ⟨_, known, by rw [refers, Option.getD_some]⟩
  getters offered found := checked.getter_reads offered found
  tables offered := absurd offered (tableless _)
  lists offered found := checked.list_reads offered found
  currentUser offered found :=
    FieldPickers.reads_of_check (checked.currentUser _ offered) found
  searches offered _ := by
    obtain ⟨item, field, opened, passed⟩ := checked.search_reads offered
    refine ⟨fun error failed => ?_, fun item field openedToo => ?_⟩
    · cases opened.symm.trans failed
    · cases opened.symm.trans openedToo
      obtain ⟨known, _, text, knownText, textual⟩ := SearchMethod.fields_of_itemField builds opened
      exact ⟨known, ⟨field, _, known, passed⟩,
        fun scalar => ⟨text, knownText, by rw [textual]; rfl⟩⟩

end Run.Pairing

end EntityResolver
