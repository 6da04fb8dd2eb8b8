import EntityResolver.Proofs.Catalog.Spoken
import EntityResolver.Proofs.Database

/-!
What the getters of a catalog read, and what nobody reads.

A field that refers to entities is read by pickers that may find fields of those entities as well,
and so on inside. Where a field of an entity is neither found so nor supplied by a getter, the
catalog has a gap.
-/

set_option autoImplicit false

namespace EntityResolver

structure Reading where
  cls : ClassId
  field : String
  inside : FieldPickers

mutual

/-- What is read when the picker reads a field of the class, inside the field as well. -/
def Picker.readings (schema : Schema) (cls : ClassId) (name : String) : Picker → List Reading
  | .inline _ fields | .inlineList _ fields | .nested _ _ _ fields _ _ _ =>
      ⟨cls, name, fields⟩ ::
        match (schema.field? cls name).bind fun field => field.kind.target? with
        | some inner => fields.readings schema inner
        | none => []
  | .scalar _ _ | .reference _ | .referenceList _ | .referenceMap _ _ => [⟨cls, name, .none⟩]

def FieldPickers.readings (schema : Schema) (cls : ClassId) : FieldPickers → List Reading
  | .none => []
  | .field name picker rest => picker.readings schema cls name ++ rest.readings schema cls

end

namespace Catalog

def readings (catalog : Catalog) : List Reading :=
  catalog.getters.flatMap fun getter => getter.fields.readings catalog.schema getter.cls

/-- The field is not found with the pickers, and no getter of the class supplies it. -/
def Lacks (catalog : Catalog) (cls : ClassId) (fields : FieldPickers) (name : String) : Prop :=
  fields.find? name = none ∧ ∀ getter ∈ catalog.gettersOf cls, name ∉ getter.supplied

def lackings (catalog : Catalog) (cls : ClassId) (fields : FieldPickers) : List String :=
  (((catalog.schema.class? cls).map EntityClass.fields).getD []).map Field.name |>.filter
    fun name => (fields.find? name).isNone &&
      (catalog.gettersOf cls).all fun getter => !getter.supplied.contains name

def rootGaps (catalog : Catalog) : List (String × String) :=
  catalog.getters.flatMap fun getter => (catalog.lackings getter.cls .none).map fun name =>
    (catalog.schema.className getter.cls, name)

/-- What is lacking of the entities found in a field: the class and the field that is read, and the
class and the field that is lacking. -/
def innerGaps (catalog : Catalog) : List ((String × String) × String × String) :=
  catalog.readings.flatMap fun reading =>
    match (catalog.schema.field? reading.cls reading.field).bind
        fun field => field.kind.target? with
    | some inner => (catalog.lackings inner reading.inside).map fun name =>
        ((catalog.schema.className reading.cls, reading.field),
          catalog.schema.className inner, name)
    | none => []

end Catalog

variable {schema : Schema} {cls inner : ClassId} {name innerName : String}
variable {picker innerPicker : Picker} {fields : FieldPickers}

theorem Picker.mem_readings (schema : Schema) (cls : ClassId) (name : String) (picker : Picker) :
    ⟨cls, name, picker.inside⟩ ∈ picker.readings schema cls name := by
  cases picker with
  | inline _ _ | inlineList _ _ | nested _ _ _ _ _ _ _ => exact List.mem_cons_self
  | scalar _ _ | reference _ | referenceList _ | referenceMap _ _ => exact List.mem_singleton_self _

theorem FieldPickers.readings_subset (found : fields.find? name = some picker) :
    picker.readings schema cls name ⊆ fields.readings schema cls := by
  induction fields using FieldPickers.names.induct with
  | case1 => cases found
  | case2 other first rest inductionHypothesis =>
      rw [FieldPickers.find?] at found
      rw [FieldPickers.readings]
      by_cases here : other = name
      · rw [if_pos here] at found
        cases found
        exact here ▸ List.subset_append_left _ _
      · rw [if_neg here] at found
        exact List.subset_append_of_subset_right _ (inductionHypothesis found)

theorem Picker.readings_inside_subset (refers : schema.Refers cls name inner)
    (found : picker.inside.find? innerName = some innerPicker) :
    innerPicker.readings schema inner innerName ⊆ picker.readings schema cls name := by
  obtain ⟨field, known, target⟩ := refers
  cases picker with
  | scalar _ _ | reference _ | referenceList _ | referenceMap _ _ => cases found
  | inline _ fields | inlineList _ fields | nested _ _ _ fields _ _ _ =>
      simp only [Picker.readings, known, Option.bind_some, target]
      exact List.subset_cons_of_subset _ (FieldPickers.readings_subset found)

namespace Catalog

variable {catalog : Catalog}

theorem getter_readings_subset {getter : Getter} (offered : getter ∈ catalog.getters) :
    getter.fields.readings catalog.schema getter.cls ⊆ catalog.readings :=
  fun _ member => List.mem_flatMap.mpr ⟨getter, offered, member⟩

theorem mem_lackings {field : Field} (declared : catalog.schema.field? cls name = some field)
    (lacks : catalog.Lacks cls fields name) : name ∈ catalog.lackings cls fields := by
  obtain ⟨known, found, isField⟩ := Option.bind_eq_some_iff.mp declared
  obtain ⟨absent, unsupplied⟩ := lacks
  unfold lackings
  rw [found]
  refine List.mem_filter.mpr ⟨?_, ?_⟩
  · have named : field.name = name := by simpa using List.find?_some isField
    exact List.mem_map.mpr ⟨field, List.mem_of_find?_eq_some isField, named⟩
  · simpa [absent] using unsupplied

theorem mem_rootGaps {field : Field} (served : catalog.gettersOf cls ≠ [])
    (declared : catalog.schema.field? cls name = some field)
    (lacks : catalog.Lacks cls .none name) :
    (catalog.schema.className cls, name) ∈ catalog.rootGaps := by
  obtain ⟨getter, offers⟩ := List.exists_mem_of_ne_nil _ served
  obtain ⟨offered, rfl⟩ : getter ∈ catalog.getters ∧ getter.cls = cls := by
    simpa [gettersOf] using offers
  have lacking := mem_lackings declared lacks
  exact List.mem_flatMap.mpr ⟨getter, offered, List.mem_map.mpr ⟨name, lacking, rfl⟩⟩

theorem mem_innerGaps {reading : Reading} {field : Field} (read : reading ∈ catalog.readings)
    (refers : catalog.schema.Refers reading.cls reading.field inner)
    (declared : catalog.schema.field? inner name = some field)
    (lacks : catalog.Lacks inner reading.inside name) :
    ((catalog.schema.className reading.cls, reading.field), catalog.schema.className inner, name) ∈
      catalog.innerGaps := by
  obtain ⟨outer, known, target⟩ := refers
  refine List.mem_flatMap.mpr ⟨reading, read, ?_⟩
  simp only [known, Option.bind_some, target]
  exact List.mem_map.mpr ⟨name, mem_lackings declared lacks, rfl⟩

end Catalog

end EntityResolver
