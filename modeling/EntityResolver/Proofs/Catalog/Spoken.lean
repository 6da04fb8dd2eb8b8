import EntityResolver.Proofs.Catalog.Pickers
import EntityResolver.Proofs.Run.Reading

/-!
What depends on the language.

Only texts by language and links to profile pages are read in a language, and whether they can be
read has nothing to do with it.
-/

set_option autoImplicit false

namespace EntityResolver

def ScalarRule.isSpoken : ScalarRule → Bool
  | .byLang | .profileUrl => true
  | .raw | .url | .decimal | .date | .dateTime | .coords | .mapping _ _ => false

namespace ScalarRule

variable {rule : ScalarRule}

theorem apply_eq (silent : rule.isSpoken = false) (one other : Lang) (value : Json) :
    rule.apply one value = rule.apply other value := by
  cases rule with
  | byLang | profileUrl => cases silent
  | _ => rfl

/-- A value can be read in both languages, or it can be read in neither for the same reason. -/
theorem apply_cases (rule : ScalarRule) (one other : Lang) (value : Json) :
    (∃ first second, rule.apply one value = .ok first ∧ rule.apply other value = .ok second) ∨
      ∃ wanted, rule.apply one value = .error wanted ∧ rule.apply other value = .error wanted := by
  cases isSpoken : rule.isSpoken with
  | false =>
      rw [apply_eq isSpoken one other]
      cases rule.apply other value with
      | ok read => exact .inl ⟨read, read, rfl, rfl⟩
      | error wanted => exact .inr ⟨wanted, rfl, rfl⟩
  | true =>
      cases rule with
      | byLang =>
          simp only [apply]
          split
          · exact .inl ⟨_, _, rfl, rfl⟩
          · exact .inl ⟨_, _, rfl, rfl⟩
          · exact .inr ⟨_, rfl, rfl⟩
      | profileUrl =>
          simp only [apply]
          split
          · exact .inl ⟨_, _, rfl, rfl⟩
          · exact .inl ⟨_, _, rfl, rfl⟩
          · exact .inr ⟨_, rfl, rfl⟩
      | _ => cases isSpoken

end ScalarRule

mutual

/-- The fields that are read in a language when the picker reads a field of the class. -/
def Picker.spoken (schema : Schema) (cls : ClassId) (name : String) :
    Picker → List (ClassId × String)
  | .scalar rule _ => if rule.isSpoken then [(cls, name)] else []
  | .reference _ | .referenceList _ | .referenceMap _ _ => []
  | .inline _ fields | .inlineList _ fields | .nested _ _ _ fields _ _ _ =>
      match (schema.field? cls name).bind fun field => field.kind.target? with
      | some inner => fields.spoken schema inner
      | none => []

def FieldPickers.spoken (schema : Schema) (cls : ClassId) : FieldPickers → List (ClassId × String)
  | .none => []
  | .field name picker rest => picker.spoken schema cls name ++ rest.spoken schema cls

end

/-- The fields that methods of the catalog read in a language, its searches aside. -/
def Catalog.spoken (catalog : Catalog) : List (ClassId × String) :=
  catalog.getters.flatMap (fun getter => getter.pickers.spoken catalog.schema getter.cls) ++
    catalog.lists.flatMap (fun method => method.pickers.fields.spoken catalog.schema method.cls) ++
      (catalog.currentUser.map fun method =>
        method.pickers.fields.spoken catalog.schema method.cls).getD []

variable {schema : Schema} {cls inner : ClassId} {name innerName : String}
variable {picker innerPicker : Picker}

theorem FieldPickers.spoken_subset {fields : FieldPickers}
    (found : fields.find? name = some picker) :
    picker.spoken schema cls name ⊆ fields.spoken schema cls := by
  induction fields using FieldPickers.names.induct with
  | case1 => cases found
  | case2 other first rest inductionHypothesis =>
      simp only [FieldPickers.find?] at found
      simp only [FieldPickers.spoken]
      split at found
      · rename_i same
        cases found
        exact same ▸ List.subset_append_left _ _
      · exact List.subset_append_of_subset_right _ (inductionHypothesis found)

theorem Picker.spoken_inside_subset (refers : schema.Refers cls name inner)
    (found : picker.inside.find? innerName = some innerPicker) :
    innerPicker.spoken schema inner innerName ⊆ picker.spoken schema cls name := by
  obtain ⟨field, known, target⟩ := refers
  cases picker with
  | scalar _ _ | reference _ | referenceList _ | referenceMap _ _ => cases found
  | inline _ fields | inlineList _ fields | nested _ _ _ fields _ _ _ =>
      simp only [Picker.spoken, known, Option.bind_some, target]
      exact FieldPickers.spoken_subset found

namespace Catalog

variable {catalog : Catalog}

theorem getter_spoken_subset {getter : Getter} (offered : getter ∈ catalog.getters) :
    getter.pickers.spoken catalog.schema getter.cls ⊆ catalog.spoken := by
  intro pair member
  exact List.mem_append_left _
    (List.mem_append_left _ (List.mem_flatMap.mpr ⟨getter, offered, member⟩))

theorem list_spoken_subset {method : ListMethod} (offered : method ∈ catalog.lists) :
    method.pickers.fields.spoken catalog.schema method.cls ⊆ catalog.spoken := by
  intro pair member
  exact List.mem_append_left _
    (List.mem_append_right _ (List.mem_flatMap.mpr ⟨method, offered, member⟩))

theorem currentUser_spoken_subset {method : CurrentUserMethod}
    (offered : catalog.currentUser = some method) :
    method.pickers.fields.spoken catalog.schema method.cls ⊆ catalog.spoken := by
  intro pair member
  exact List.mem_append_right _ (by rwa [offered])

end Catalog

end EntityResolver
