import EntityResolver.Catalog.Basic

/-!
The pickers inside pickers.
-/

set_option autoImplicit false

namespace EntityResolver

def Picker.inside : Picker → FieldPickers
  | .inline _ fields | .inlineList _ fields | .nested _ _ _ fields _ _ _ => fields
  | .scalar _ _ | .reference _ | .referenceList _ | .referenceMap _ _ => .none

def Getter.pickers : Getter → FieldPickers
  | .single method => method.pickers
  | .batch method => method.pickers
  | .table _ => .none

def FieldPickers.toList : FieldPickers → List Picker
  | .none => []
  | .field _ picker rest => picker :: rest.toList

mutual

def Picker.within : Picker → List Picker
  | .inline id fields => .inline id fields :: fields.within
  | .inlineList id fields => .inlineList id fields :: fields.within
  | .nested shape key id fields hasSubfields lifts unique =>
      .nested shape key id fields hasSubfields lifts unique :: fields.within
  | other => [other]

def FieldPickers.within : FieldPickers → List Picker
  | .none => []
  | .field _ picker rest => picker.within ++ rest.within

end

/-- The pickers of the methods of a catalog by which entities are fetched and found, and all inside
them. -/
def Catalog.pickers (catalog : Catalog) : List Picker :=
  catalog.getters.flatMap (fun method => method.pickers.within) ++
    catalog.lists.flatMap (fun method => method.pickers.fields.within) ++
      catalog.searches.flatMap fun method => method.picker.within

variable {picker other : Picker} {name : String}

theorem Picker.within_eq (picker : Picker) : picker.within = picker :: picker.inside.within := by
  cases picker <;> rfl

theorem Picker.mem_within (picker : Picker) : picker ∈ picker.within := by
  rw [picker.within_eq]
  exact List.mem_cons_self

theorem FieldPickers.mem_toList {fields : FieldPickers}
    (found : fields.find? name = some picker) : picker ∈ fields.toList := by
  induction fields using FieldPickers.names.induct with
  | case1 => cases found
  | case2 other first rest inductionHypothesis =>
      simp only [FieldPickers.find?] at found
      split at found
      · cases found
        exact List.mem_cons_self
      · exact List.mem_cons_of_mem _ (inductionHypothesis found)

theorem FieldPickers.within_eq (fields : FieldPickers) :
    fields.within = fields.toList.flatMap Picker.within := by
  induction fields using FieldPickers.names.induct with
  | case1 => rfl
  | case2 _ picker rest inductionHypothesis =>
      exact congrArg (picker.within ++ ·) inductionHypothesis

theorem FieldPickers.within_subset {fields : FieldPickers}
    (found : fields.find? name = some picker) : picker.within ⊆ fields.within := by
  rw [fields.within_eq]
  exact fun _ inside => List.mem_flatMap.mpr ⟨picker, FieldPickers.mem_toList found, inside⟩

theorem Picker.within_inside_subset (found : picker.inside.find? name = some other) :
    other.within ⊆ picker.within := by
  rw [picker.within_eq]
  exact List.Subset.trans (FieldPickers.within_subset found) (List.subset_cons_self _ _)

namespace Catalog

variable {catalog : Catalog}

theorem getter_pickers_subset {getter : Getter} (offered : getter ∈ catalog.getters) :
    getter.pickers.within ⊆ catalog.pickers := fun _ inside =>
  List.mem_append_left _ (List.mem_append_left _ (List.mem_flatMap.mpr ⟨getter, offered, inside⟩))

theorem list_pickers_subset {method : ListMethod} (offered : method ∈ catalog.lists) :
    method.pickers.fields.within ⊆ catalog.pickers := fun _ inside =>
  List.mem_append_left _ (List.mem_append_right _ (List.mem_flatMap.mpr ⟨method, offered, inside⟩))

theorem search_pickers_subset {method : SearchMethod} (offered : method ∈ catalog.searches) :
    method.picker.within ⊆ catalog.pickers := fun _ inside =>
  List.mem_append_right _ (List.mem_flatMap.mpr ⟨method, offered, inside⟩)

end Catalog

end EntityResolver
