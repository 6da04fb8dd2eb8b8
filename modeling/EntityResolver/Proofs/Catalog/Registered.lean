import EntityResolver.Catalog.Basic
import EntityResolver.Proofs.Checked
import EntityResolver.Proofs.Twin.Pairing

/-!
What is known of the methods of a catalog that has been registered.

Each has passed its check, and so has every picker inside it, for the field that it reads. What a
picker that fits a kind of field gives may stand for such a field.
-/

set_option autoImplicit false

namespace EntityResolver

structure Catalog.Checked (catalog : Catalog) : Prop where
  getters : ∀ getter ∈ catalog.getters, checkGetter catalog.schema getter = .ok ()
  lists : ∀ method ∈ catalog.lists, checkList catalog.schema method = .ok ()
  searches : ∀ method ∈ catalog.searches, checkSearch catalog.schema method = .ok ()
  currentUser : ∀ method, catalog.currentUser = some method →
    checkCurrentUser catalog.schema method = .ok ()

def Picker.Reads (schema : Schema) (cls : ClassId) (name : String) (picker : Picker) : Prop :=
  ∃ field path, schema.field? cls name = some field ∧ picker.check schema path field = .ok ()

/-- The value may stand for a field of the kind, and may always be missing. -/
def FieldKind.holds {ε : Type} : FieldKind ClassId → FieldValue ε → Bool
  | _, .missing => true
  | .scalar _, .scalar _ => true
  | .entity _, .entity _ | .entity _, .optional _ => true
  | .optionalEntity _, .entity _ | .optionalEntity _, .optional _ => true
  | .entityList _, .list _ => true
  | .entityMap _, .map _ => true
  | _, _ => false

namespace Catalog

variable {schema : Schema} {catalog grown : Catalog} {registration : Registration}
variable {registrations : List Registration}

theorem checked_empty (schema : Schema) : (empty schema).Checked :=
  ⟨nofun, nofun, nofun, nofun⟩

theorem Checked.register (checked : catalog.Checked)
    (done : catalog.register registration = .ok grown) :
    grown.schema = catalog.schema ∧ grown.Checked ∧
      ∀ getter ∈ grown.getters, getter ∈ catalog.getters ∨ registration = .getter getter := by
  cases registration with
  | getter method =>
      obtain ⟨⟨⟩, passed, same⟩ := bind_eq_ok_iff.mp done
      cases same
      refine ⟨rfl, { checked with getters := fun getter member => ?_ }, fun getter member => ?_⟩
      · rcases List.mem_append.mp member with old | new
        · exact checked.getters getter old
        · exact List.mem_singleton.mp new ▸ passed
      · exact (List.mem_append.mp member).imp_right fun new => by rw [List.mem_singleton.mp new]
  | list method =>
      obtain ⟨⟨⟩, passed, continued⟩ := bind_eq_ok_iff.mp done
      split at continued
      · cases continued
      · cases continued
        refine ⟨rfl, { checked with lists := fun other member => ?_ }, fun _ => .inl⟩
        rcases List.mem_append.mp member with old | new
        · exact checked.lists other old
        · exact List.mem_singleton.mp new ▸ passed
  | search method =>
      obtain ⟨⟨⟩, passed, continued⟩ := bind_eq_ok_iff.mp done
      split at continued
      · cases continued
      · cases continued
        refine ⟨rfl, { checked with searches := fun other member => ?_ }, fun _ => .inl⟩
        rcases List.mem_append.mp member with old | new
        · exact checked.searches other old
        · exact List.mem_singleton.mp new ▸ passed
  | currentUser method =>
      obtain ⟨⟨⟩, passed, continued⟩ := bind_eq_ok_iff.mp done
      split at continued
      · cases continued
      · cases continued
        refine ⟨rfl, { checked with currentUser := ?_ }, fun _ => .inl⟩
        rintro other ⟨⟩
        exact passed
  | serverTime path =>
      cases done
      exact ⟨rfl, { checked with }, fun _ => .inl⟩

theorem checked_of_ofRegistrations (accepted : ofRegistrations schema registrations = .ok catalog) :
    catalog.schema = schema ∧ catalog.Checked ∧
      ∀ getter ∈ catalog.getters, .getter getter ∈ registrations := by
  have registered {registrations : List Registration} {built : Catalog} (checked : built.Checked)
      (accepted : registrations.foldlM register built = .ok catalog) :
      catalog.schema = built.schema ∧ catalog.Checked ∧
        ∀ getter ∈ catalog.getters, getter ∈ built.getters ∨ .getter getter ∈ registrations := by
    induction registrations generalizing built with
    | nil =>
        cases accepted
        exact ⟨rfl, checked, fun _ => .inl⟩
    | cons registration rest inductionHypothesis =>
        obtain ⟨grown, done, continued⟩ := bind_eq_ok_iff.mp accepted
        obtain ⟨sameSchema, checkedToo, added⟩ := checked.register done
        obtain ⟨sameAgain, checkedAll, others⟩ := inductionHypothesis checkedToo continued
        refine ⟨sameAgain.trans sameSchema, checkedAll, fun getter member => ?_⟩
        rcases others getter member with inGrown | inRest
        · exact (added getter inGrown).imp_right fun same => by simp [same]
        · exact .inr (List.mem_cons_of_mem _ inRest)
  obtain ⟨sameSchema, checked, known⟩ := registered (checked_empty schema) accepted
  refine ⟨sameSchema, checked, fun getter member => (known getter member).resolve_left ?_⟩
  exact List.not_mem_nil

end Catalog

variable {schema : Schema} {cls inner : ClassId} {field : Field} {path name innerName : String}
variable {picker innerPicker : Picker} {fields : FieldPickers} {shape : FieldValue Unit}

theorem Picker.fits_of_check (checked : picker.check schema path field = .ok ()) :
    picker.fits field.kind = true := by
  have fits {picker : Picker} (passed : picker.checkKind path field = .ok ()) :
      picker.fits field.kind = true := by
    unfold Picker.checkKind at passed
    split at passed
    · assumption
    · cases passed
  cases picker with
  | scalar _ _ | reference _ | referenceList _ | referenceMap _ _ =>
      rw [Picker.check] at checked
      · exact fits checked
      all_goals nofun
  | inline _ _ | inlineList _ _ | nested _ _ _ _ _ _ _ =>
      rw [Picker.check] at checked
      obtain ⟨⟨⟩, passed, _⟩ := bind_eq_ok_iff.mp checked
      exact fits passed

theorem FieldPickers.reads_of_check (checked : fields.check schema path cls = .ok ())
    (found : fields.find? name = some picker) : picker.Reads schema cls name := by
  induction fields using FieldPickers.names.induct with
  | case1 => cases found
  | case2 other first rest inductionHypothesis =>
      rw [FieldPickers.check] at checked
      split at checked
      · cases checked
      · rename_i field known
        obtain ⟨⟨⟩, passed, continued⟩ := bind_eq_ok_iff.mp checked
        simp only [FieldPickers.find?] at found
        split at found
        · rename_i same
          cases found
          exact ⟨field, path, same ▸ known, passed⟩
        · exact inductionHypothesis continued found

theorem Picker.Reads.inside (reads : picker.Reads schema cls name)
    (refers : ∃ field, schema.field? cls name = some field ∧ field.kind.target? = some inner)
    (found : picker.inside.find? innerName = some innerPicker) :
    innerPicker.Reads schema inner innerName := by
  obtain ⟨field, path, known, checked⟩ := reads
  obtain ⟨fieldToo, knownToo, target⟩ := refers
  cases known.symm.trans knownToo
  have below {fields : FieldPickers}
      (passed : (field.target path >>= fields.check schema path) = .ok ())
      (found : fields.find? innerName = some innerPicker) :
      innerPicker.Reads schema inner innerName := by
    unfold Field.target at passed
    rw [target] at passed
    exact FieldPickers.reads_of_check passed found
  cases picker with
  | scalar _ _ | reference _ | referenceList _ | referenceMap _ _ => cases found
  | inline _ _ | inlineList _ _ | nested _ _ _ _ _ _ _ =>
      rw [Picker.check] at checked
      obtain ⟨⟨⟩, _, continued⟩ := bind_eq_ok_iff.mp checked
      exact below continued found

theorem Picker.eq_scalar_of_fits {kind : FieldKind ClassId} (fits : picker.fits kind = true)
    (scalar : kind.target? = none) : ∃ rule key, picker = .scalar rule key := by
  cases kind with
  | scalar _ =>
      cases picker with
      | scalar rule key => exact ⟨rule, key, rfl⟩
      | nested nesting _ _ _ _ _ _ => cases nesting <;> cases fits
      | _ => cases fits
  | _ _ => cases scalar

namespace Catalog.Checked

variable {catalog : Catalog}

theorem getter_reads {getter : Getter} (checked : catalog.Checked)
    (offered : getter ∈ catalog.getters) (found : getter.pickers.find? name = some picker) :
    picker.Reads catalog.schema getter.cls name := by
  have passed := checked.getters getter offered
  unfold checkGetter at passed
  split at passed
  · cases passed
  · split at passed
    · cases passed
    · cases getter with
      | single method | batch method => exact FieldPickers.reads_of_check passed found
      | table method => cases found

theorem list_reads {method : ListMethod} (checked : catalog.Checked)
    (offered : method ∈ catalog.lists) (found : method.pickers.fields.find? name = some picker) :
    picker.Reads catalog.schema method.cls name := by
  have passed := checked.lists method offered
  unfold checkList at passed
  split at passed
  · cases passed
  · exact FieldPickers.reads_of_check passed found

theorem search_reads {method : SearchMethod} (checked : catalog.Checked)
    (offered : method ∈ catalog.searches) : ∃ item field,
      method.itemField catalog.schema = .ok (item, field) ∧
        method.picker.check catalog.schema method.path field = .ok () := by
  obtain ⟨⟨item, field⟩, opened, passed⟩ := bind_eq_ok_iff.mp (checked.searches method offered)
  exact ⟨item, field, opened, passed⟩

end Catalog.Checked

@[simp] theorem FieldKind.holds_shape {ε : Type} (kind : FieldKind ClassId) (value : FieldValue ε) :
    kind.holds value.shape = kind.holds value := by
  cases kind <;> cases value <;> rfl

theorem FieldKind.holds_scalar {kind : FieldKind ClassId} {rule : ScalarRule} {key : String}
    (fits : Picker.fits (.scalar rule key) kind = true) (scalar : Scalar) :
    kind.holds (FieldValue.scalar scalar : FieldValue Unit) = true := by
  cases kind with
  | scalar _ => rfl
  | _ _ => cases fits

theorem FieldKind.target_of_holds {ε : Type} {kind : FieldKind ClassId} {value : FieldValue ε}
    (holds : kind.holds value = true) (nonempty : value.entities ≠ []) :
    ∃ target, kind.target? = some target := by
  cases kind with
  | scalar _ =>
      cases value with
      | missing | scalar _ => exact (nonempty rfl).elim
      | _ _ => cases holds
  | _ target => exact ⟨target, rfl⟩

theorem FieldKind.holds_oneEntity {entity? : Option Unit}
    (single : (∃ target, field.kind = .entity target) ∨
      ∃ target, field.kind = .optionalEntity target) :
    field.kind.holds (Run.oneEntity field entity?) = true := by
  rcases single with ⟨target, kind⟩ | ⟨target, kind⟩
  all_goals
    unfold Run.oneEntity
    rw [kind]
    cases entity? <;> rfl

theorem Picker.Gives.holds (gives : picker.Gives field shape)
    (fits : picker.fits field.kind = true) : field.kind.holds shape = true := by
  cases picker with
  | scalar _ _ => exact gives.elim
  | reference _ | inline _ _ =>
      obtain ⟨entity?, rfl⟩ := gives
      apply FieldKind.holds_oneEntity
      cases kind : field.kind <;> simp [kind, Picker.fits] at fits ⊢
  | referenceList _ | inlineList _ _ | referenceMap _ _ =>
      obtain ⟨entities, rfl⟩ := gives
      cases kind : field.kind <;> simp [kind, Picker.fits, FieldKind.holds] at fits ⊢
  | nested nesting _ _ _ _ _ _ =>
      cases nesting with
      | single | ancestors =>
          obtain ⟨entity?, rfl⟩ := gives
          apply FieldKind.holds_oneEntity
          cases kind : field.kind <;> simp [kind, Picker.fits] at fits ⊢
      | list | map =>
          obtain ⟨entities, rfl⟩ := gives
          cases kind : field.kind <;> simp [kind, Picker.fits, FieldKind.holds] at fits ⊢

theorem BatchGetter.holds_nullValue (kind : FieldKind ClassId) :
    kind.holds (BatchGetter.nullValue kind) = true := by
  cases kind <;> rfl

end EntityResolver
